import IpcMsq.Elements
import IpcMsq.Ring
import IpcMsq.Runs

/-!
One queue between the call that hands its slot out and its release: any run of
enqueue and dequeue calls, from any number of callers, on whatever an earlier
owner left in the elements. The accepted and received messages alone determine
the two indices and the count (`Counted`), and as long as the run starts with an
enqueue the elements from `outdx` on hold the accepted messages that were not
received yet, in order (`Holding`).
-/
namespace IpcMsq.Fifo
open IpcMsq.Memory IpcMsq.Common IpcMsq.Table IpcMsq.Elements IpcMsq.Ring IpcMsq.Runs

/-- A call on the queue, with what it returned; a dequeue also with the caller's
    message before and after. -/
inductive QueueEvent
  | enqueue (msg : IPC_MSG) (ret : INT32)
  | dequeue (before : IPC_MSG) (ret : INT32) (after : IPC_MSG)

inductive QueueStep (q : Nat) : Mem → QueueEvent → Mem → Prop
  | enqueue {tbl tbl' : Mem} {msg : IPC_MSG} {ret : INT32} :
      ipc_msgque_enqueue tbl (some q) msg = (ret,tbl') → QueueStep q tbl (.enqueue msg ret) tbl'
  | dequeue {tbl tbl' : Mem} {before after : IPC_MSG} {ret : INT32} :
      ipc_msgque_dequeue tbl (some q) before = (ret,after,tbl') → QueueStep q tbl (.dequeue before ret after) tbl'

/-- The message of an enqueue that succeeded. -/
def QueueEvent.accepted : QueueEvent → Option (UINT32 × List UInt8)
  | .enqueue msg ret => if ret = 0 then some msg.content else none
  | .dequeue _ _ _ => none

/-- The message that a successful dequeue handed out. -/
def QueueEvent.received : QueueEvent → Option (UINT32 × List UInt8)
  | .enqueue _ _ => none
  | .dequeue _ ret after => if ret = 0 then some after.content else none

def QueueEvent.IsEnqueue : QueueEvent → Prop
  | .enqueue _ _ => True
  | .dequeue _ _ _ => False

def accepted (es : List QueueEvent) : List (UINT32 × List UInt8) := es.filterMap QueueEvent.accepted
def received (es : List QueueEvent) : List (UINT32 × List UInt8) := es.filterMap QueueEvent.received

/-- Successful enqueues less successful dequeues. -/
def outstanding (es : List QueueEvent) : Int := (accepted es).length - (received es).length

/-- Every message given to an enqueue fits the data of one element. -/
def Small (es : List QueueEvent) : Prop := ∀ msg ret, .enqueue msg ret ∈ es → msg.size.toNat ≤ 12

/-- The first call, if any, is an enqueue. -/
def EnqueueFirst (es : List QueueEvent) : Prop := ∀ e, es.head? = some e → e.IsEnqueue

theorem accepted_snoc (es : List QueueEvent) (e : QueueEvent) :
    accepted (es ++ [e]) = accepted es ++ e.accepted.toList := by
  cases h : e.accepted <;> simp [accepted,h]

theorem received_snoc (es : List QueueEvent) (e : QueueEvent) :
    received (es ++ [e]) = received es ++ e.received.toList := by
  cases h : e.received <;> simp [received,h]

@[simp] theorem accepted_dequeue (es : List QueueEvent) (msg after : IPC_MSG) (ret : INT32) :
    accepted (es ++ [.dequeue msg ret after]) = accepted es := by simp [accepted,QueueEvent.accepted]

@[simp] theorem received_enqueue (es : List QueueEvent) (msg : IPC_MSG) (ret : INT32) :
    received (es ++ [.enqueue msg ret]) = received es := by simp [received,QueueEvent.received]

/-- What one call can do: a refused one changes nothing, and the accepted ones
    put a message or take the message at `outdx`. -/
theorem queueStep_cases {q : Nat} {tbl tbl' : Mem} {e : QueueEvent} (step : QueueStep q tbl e tbl') :
    (e.accepted = none ∧ e.received = none ∧ tbl' = tbl ∧
      (16 ≤ (count tbl q).toNat ∧ e.IsEnqueue ∨ indx tbl q = outdx tbl q)) ∨
    (∃ msg, e = .enqueue msg 0 ∧ (count tbl q).toNat < 16 ∧ tbl' = putElement tbl q msg) ∨
    (∃ msg after, e = .dequeue msg 0 after ∧ indx tbl q ≠ outdx tbl q ∧ takeElement tbl q msg = (after,tbl')) := by
  cases step with
  | @enqueue _ msg ret called =>
    rcases enqueue_returned called with ⟨rfl,rfl,full⟩ | ⟨rfl,room,put⟩
    · exact .inl ⟨rfl,rfl,rfl,.inl ⟨full,trivial⟩⟩
    · exact .inr (.inl ⟨msg,rfl,room,put.symm⟩)
  | @dequeue _ msg after ret called =>
    rcases dequeue_returned called with ⟨rfl,rfl,rfl,empty⟩ | ⟨rfl,some,taken⟩
    · exact .inl ⟨rfl,rfl,rfl,.inr empty⟩
    · exact .inr (.inr ⟨msg,after,rfl,some,taken⟩)

/-! ### Indices and count -/

/-- The header of a queue that accepted `e` messages and handed out `d`. Once a
    message was accepted at least one stays; before that, up to fifteen are
    handed out that nobody sent. -/
structure Counted (tbl : Mem) (q e d : Nat) : Prop where
  indx : (indx tbl q).toNat = (15 + e) % 16
  outdx : (outdx tbl q).toNat = d % 16
  count : ((count tbl q).toNat + d) % 2 ^ 32 = e % 2 ^ 32
  fresh : e = 0 → d ≤ 15
  used : 0 < e → d < e ∧ e ≤ d + 16

theorem counted_put {tbl : Mem} {q e d : Nat} {msg : IPC_MSG} (inv : Counted tbl q e d)
    (room : (count tbl q).toNat < 16) : Counted (putElement tbl q msg) q (e + 1) d := by
  obtain ⟨indx,outdx,counted,fresh,used⟩ := inv
  have bound := (Common.count tbl q).toNat_lt
  have added : (Common.count (putElement tbl q msg) q).toNat = (Common.count tbl q).toNat + 1 := by
    have one : (1 : UINT32).toNat = 1 := rfl
    rw [putElement_count,UInt32.toNat_add,one]
    omega
  refine ⟨?_,?_,?_,by omega,fun _ => ?_⟩
  · rw [putElement_indx,nextSlot,indx]; omega
  · rw [(putElement_header tbl q msg).2.2.2,outdx]
  · rw [added]; omega
  · rcases Nat.eq_zero_or_pos e with none | some
    · have few := fresh none
      omega
    · have := used some
      omega

theorem counted_take {tbl tbl' : Mem} {q e d : Nat} {msg after : IPC_MSG} (inv : Counted tbl q e d)
    (some : Common.indx tbl q ≠ Common.outdx tbl q) (taken : takeElement tbl q msg = (after,tbl')) :
    Counted tbl' q e (d + 1) ∧ (0 < e → d + 1 < e) := by
  obtain ⟨indx,outdx,counted,fresh,used⟩ := inv
  have mem : tbl' = (takeElement tbl q msg).2 := by rw [taken]
  have apart : (15 + e) % 16 ≠ d % 16 := by
    rw [← indx,← outdx]
    exact fun same => some (UInt32.toNat_inj.mp same)
  have bound := (Common.count tbl q).toNat_lt
  have less : ((Common.count tbl' q).toNat + 1) % 2 ^ 32 = (Common.count tbl q).toNat := by
    have one : (1 : UINT32).toNat = 1 := rfl
    rw [mem,takeElement_count,UInt32.toNat_sub,one]
    omega
  refine ⟨⟨?_,?_,?_,?_,?_⟩,?_⟩
  · rw [mem,(takeElement_header tbl q msg).2.2.2,indx]
  · rw [mem,takeElement_outdx,outdx]; omega
  · omega
  · intro none
    have := fresh none
    omega
  · intro more
    have := used more
    omega
  · intro more
    have := used more
    omega

/-- A new queue counts no message, and its indices differ. -/
theorem counted_new {tbl : Mem} {q : Nat} (start : Counted tbl q 0 0) :
    (count tbl q).toNat = 0 ∧ indx tbl q ≠ outdx tbl q := by
  obtain ⟨indx,outdx,counts,_,_⟩ := start
  have bound := (Common.count tbl q).toNat_lt
  constructor
  · omega
  · intro same
    rw [same] at indx
    omega

/-- The header that `ipc_msgque_get` leaves. -/
theorem get_counted {g : Option IPC_MSQINFO} {key ret : INT32} {info : IPC_MSQINFO}
    (got : ipc_msgque_get g key = (ret,some info)) (ok : 0 ≤ ret) : Counted info.tbl (msgQueTbl ret.toUInt32.toNat) 0 0 := by
  cases g with
  | none => cases got
  | some before =>
    rcases get_cases before key with ⟨_,refused⟩ | ⟨_,_,refused⟩ | ⟨i,_,inside,_,_,done⟩
    · cases got.symm.trans refused; exact absurd ok (by decide)
    · cases got.symm.trans refused; exact absurd ok (by decide)
    · cases got.symm.trans done
      obtain ⟨_,_,_,indx,outdx,count⟩ := assignQueue_header before.tbl i key
      rw [slotNumber inside]
      refine ⟨?_,?_,?_,by omega,by omega⟩
      · rw [indx]; rfl
      · rw [outdx]; rfl
      · rw [count]; rfl

theorem firstQueue_counted : Counted firstQueue.tbl (msgQueTbl 0) 0 0 := get_counted firstQueue_got (by decide)

/-- The header after every run, refused calls and messages of any size included. -/
theorem run_counted {q : Nat} {tbl tbl' : Mem} {es : List QueueEvent} (start : Counted tbl q 0 0)
    (run : Run (QueueStep q) tbl es tbl') : Counted tbl' q (accepted es).length (received es).length := by
  refine run.invariant (I := fun es tbl => Counted tbl q (accepted es).length (received es).length) start ?_
  intro es t e u _ inv step
  rw [accepted_snoc,received_snoc]
  rcases queueStep_cases step with ⟨notIn,notOut,same,_⟩ | ⟨msg,rfl,room,rfl⟩ | ⟨msg,after,rfl,some,taken⟩
  · simpa [notIn,notOut,same] using inv
  · simpa [QueueEvent.accepted,QueueEvent.received] using counted_put inv room
  · simpa [QueueEvent.accepted,QueueEvent.received] using (counted_take inv some taken).1

/-- A new queue hands out a message that nobody sent. -/
theorem firstQueue_dequeued : ∃ after tbl,
    Run (QueueStep (msgQueTbl 0)) firstQueue.tbl [.dequeue ⟨0,fun _ => 0⟩ 0 after] tbl := by
  obtain ⟨after,tbl,taken⟩ : ∃ after tbl, takeElement firstQueue.tbl (msgQueTbl 0) ⟨0,fun _ => 0⟩ = (after,tbl) := ⟨_,_,rfl⟩
  refine ⟨after,tbl,Run.one (.dequeue ?_)⟩
  rw [dequeue_nonempty (counted_new firstQueue_counted).2,taken]

/-- A new queue takes up to sixteen messages. -/
theorem firstQueue_filled (msg : IPC_MSG) {n : Nat} (few : n ≤ 16) : ∃ tbl,
    Run (QueueStep (msgQueTbl 0)) firstQueue.tbl (List.replicate n (.enqueue msg 0)) tbl ∧
      outstanding (List.replicate n (.enqueue msg 0)) = n := by
  have accepts (k : Nat) : (accepted (List.replicate k (.enqueue msg 0))).length = k := by
    simp [accepted,QueueEvent.accepted]
  have receives (k : Nat) : (received (List.replicate k (.enqueue msg 0))).length = 0 := by
    simp [received,QueueEvent.received]
  suffices ∃ tbl, Run (QueueStep (msgQueTbl 0)) firstQueue.tbl (List.replicate n (.enqueue msg 0)) tbl by
    obtain ⟨tbl,run⟩ := this
    exact ⟨tbl,run,by rw [outstanding,accepts,receives]; simp⟩
  induction n with
  | zero => exact ⟨_,.nil⟩
  | succ n ih =>
    obtain ⟨tbl,run⟩ := ih (by omega)
    have counted := run_counted firstQueue_counted run
    rw [accepts,receives] at counted
    obtain ⟨_,_,counts,_,_⟩ := counted
    rw [List.replicate_succ']
    rcases enqueue_cases tbl (msgQueTbl 0) msg with ⟨_,full⟩ | ⟨done,_⟩
    · have bound := (count tbl (msgQueTbl 0)).toNat_lt
      omega
    · exact ⟨_,run.snoc (.enqueue done)⟩

/-! ### Contents -/

/-- The messages in the elements from `outdx` on are the accepted ones that
    were not received yet, oldest first. -/
structure Holding (q : Nat) (es : List QueueEvent) (tbl : Mem) : Prop where
  counted : Counted tbl q (accepted es).length (received es).length
  started : es = [] ∨ 0 < (accepted es).length
  queued : accepted es = received es ++ window (fun p => contentAt tbl (element q p)) 16 (received es).length
    ((accepted es).length - (received es).length)

/-- A message that still waits was accepted, so it fits its element. -/
theorem holding_fits {q : Nat} {es : List QueueEvent} {tbl : Mem} (inv : Holding q es tbl)
    (small : ∀ c ∈ accepted es, c.1.toNat ≤ 12) {k : Nat}
    (waits : k < (accepted es).length - (received es).length) :
    (load32 tbl (element q (((received es).length + k) % 16))).toNat ≤ 12 := by
  have listed : contentAt tbl (element q (((received es).length + k) % 16)) ∈ accepted es := by
    rw [inv.queued]
    exact List.mem_append_right _ (List.mem_map_of_mem (List.mem_range.mpr waits))
  exact small _ listed

theorem holding_put {q : Nat} {es : List QueueEvent} {tbl : Mem} {msg : IPC_MSG} (inv : Holding q es tbl)
    (old : ∀ c ∈ accepted es, c.1.toNat ≤ 12) (small : msg.size.toNat ≤ 12) (room : (count tbl q).toNat < 16) :
    Holding q (es ++ [.enqueue msg 0]) (putElement tbl q msg) := by
  have more : accepted (es ++ [.enqueue msg 0]) = accepted es ++ [msg.content] := accepted_snoc es _
  have same : received (es ++ [.enqueue msg 0]) = received es := received_enqueue es msg 0
  obtain ⟨counted,started,queued⟩ := inv
  have after : Counted (putElement tbl q msg) q ((accepted es).length + 1) (received es).length := counted_put counted room
  have position : nextSlot tbl q = (accepted es).length % 16 := by
    rw [nextSlot,counted.indx]
    omega
  set e := (accepted es).length with eIs
  set d := (received es).length with dIs
  have ordered : d ≤ e := by
    have lengths := congrArg List.length queued
    rw [List.length_append,window_length] at lengths
    omega
  have few := (after.used (by omega)).2
  refine ⟨by simpa [more,same,← eIs,← dIs] using after,.inr (by simp [more]),?_⟩
  have keep : ∀ k < e - d, contentAt (putElement tbl q msg) (element q ((d + k) % 16)) =
      contentAt tbl (element q ((d + k) % 16)) := by
    intro k inside
    have apart : (d + k) % 16 ≠ (d + (e - d)) % 16 := place_ne inside (by omega)
    refine putElement_other ?_ (holding_fits ⟨counted,started,queued⟩ old inside) small
    rw [position]
    rwa [Nat.add_sub_cancel' ordered] at apart
  have pushed := window_push (fun p => contentAt tbl (element q p))
    (fun p => contentAt (putElement tbl q msg) (element q p)) keep
  rw [Nat.add_sub_cancel' ordered,← position,putElement_content] at pushed
  rw [more,same,List.length_append,List.length_singleton,← eIs,← dIs,Nat.sub_add_comm ordered,pushed]
  rw [← List.append_assoc,← queued]

theorem holding_take {q : Nat} {es : List QueueEvent} {tbl tbl' : Mem} {msg after : IPC_MSG}
    (inv : Holding q es tbl) (begun : 0 < (accepted es).length) (some : indx tbl q ≠ outdx tbl q)
    (taken : takeElement tbl q msg = (after,tbl')) : Holding q (es ++ [.dequeue msg 0 after]) tbl' := by
  have same : accepted (es ++ [.dequeue msg 0 after]) = accepted es := accepted_dequeue es msg after 0
  have more : received (es ++ [.dequeue msg 0 after]) = received es ++ [after.content] := received_snoc es _
  obtain ⟨counted,started,queued⟩ := inv
  obtain ⟨header,left⟩ := counted_take counted some taken
  have content : after.content = contentAt tbl (element q ((received es).length % 16)) := by
    rw [← counted.outdx,← takeElement_content tbl q msg,taken]
  have keep : (fun p => contentAt tbl' (element q p)) = fun p => contentAt tbl (element q p) := by
    funext p
    rw [← takeElement_keep tbl q msg p,taken]
  have waiting := left begun
  obtain ⟨n,rest⟩ : ∃ n, (accepted es).length - (received es).length = n + 1 :=
    ⟨(accepted es).length - (received es).length - 1,by omega⟩
  refine ⟨by simpa [more,same] using header,.inr (by simpa [same] using begun),?_⟩
  have shorter : (accepted es).length - ((received es).length + 1) = n := by omega
  rw [same,more,keep,List.length_append,List.length_singleton,shorter,List.append_assoc,content]
  rw [rest,window_pop] at queued
  exact queued

/-- A first enqueue finds an empty queue and room, so a refused call is not the first. -/
theorem holding_refused {q : Nat} {es : List QueueEvent} {tbl : Mem} {e : QueueEvent} (inv : Holding q es tbl)
    (first : EnqueueFirst (es ++ [e])) (notIn : e.accepted = none) (notOut : e.received = none)
    (why : 16 ≤ (count tbl q).toNat ∧ e.IsEnqueue ∨ indx tbl q = outdx tbl q) : Holding q (es ++ [e]) tbl := by
  obtain ⟨counted,started,queued⟩ := inv
  have accepts : accepted (es ++ [e]) = accepted es := by simp [accepted_snoc,notIn]
  have receives : received (es ++ [e]) = received es := by simp [received_snoc,notOut]
  have begun : 0 < (accepted es).length := by
    rcases started with rfl | begun
    · obtain ⟨none,apart⟩ := counted_new counted
      rcases why with ⟨full,_⟩ | empty
      · omega
      · exact absurd empty apart
    · exact begun
  rw [← accepts] at begun
  exact ⟨by rwa [accepts,receives],.inr begun,by rwa [accepts,receives]⟩

theorem accepted_small {es : List QueueEvent} (small : Small es) : ∀ c ∈ accepted es, c.1.toNat ≤ 12 := by
  intro c listed
  obtain ⟨e,member,isIn⟩ := List.mem_filterMap.mp listed
  cases e with
  | dequeue _ _ _ => simp [QueueEvent.accepted] at isIn
  | enqueue msg ret =>
    obtain ⟨_,rfl⟩ : ret = 0 ∧ msg.content = c := by simpa [QueueEvent.accepted] using isIn
    exact small msg ret member

/-- The contents of a queue after every run that starts with an enqueue and
    gives enqueue messages that fit an element. -/
theorem run_holding {q : Nat} {tbl tbl' : Mem} {es : List QueueEvent} (start : Counted tbl q 0 0)
    (run : Run (QueueStep q) tbl es tbl') (first : EnqueueFirst es) (small : Small es) : Holding q es tbl' := by
  refine run.invariant (I := fun es tbl => EnqueueFirst es → Small es → Holding q es tbl) ?_ ?_ first small
  · intro _ _
    exact ⟨start,.inl rfl,rfl⟩
  · intro es t e u before inv step first small
    have first' : EnqueueFirst es := by
      intro x head
      exact first x (by simp [head])
    have small' : Small es := fun msg ret listed => small msg ret (List.mem_append_left _ listed)
    have inv := inv first' small'
    rcases queueStep_cases step with ⟨notIn,notOut,rfl,why⟩ | ⟨msg,rfl,room,rfl⟩ | ⟨msg,after,rfl,some,taken⟩
    · exact holding_refused inv first notIn notOut why
    · exact holding_put inv (accepted_small small') (small msg 0 (by simp)) room
    · refine holding_take inv ?_ some taken
      rcases inv.started with rfl | begun
      · exact absurd (first _ rfl) id
      · exact begun

/-! ### Results -/

/-- A queue handed out by `ipc_msgque_get` is a bounded FIFO for every run that
    starts with an enqueue: what was received is what was accepted, from the
    first message on; the count is their difference, at least one and at most
    sixteen once a message was accepted; an enqueue is refused exactly at
    sixteen; and a refused call changes no byte. -/
theorem queue_is_fifo {g : Option IPC_MSQINFO} {key ret : INT32} {info : IPC_MSQINFO}
    (got : ipc_msgque_get g key = (ret,some info)) (ok : 0 ≤ ret) {es : List QueueEvent} {tbl : Mem}
    (run : Run (QueueStep (msgQueTbl ret.toUInt32.toNat)) info.tbl es tbl) (first : EnqueueFirst es) (small : Small es) :
    received es <+: accepted es ∧
      ((count tbl (msgQueTbl ret.toUInt32.toNat)).toNat : Int) = outstanding es ∧
      (es ≠ [] → 1 ≤ outstanding es ∧ outstanding es ≤ 16) ∧
      (∀ msg, (ipc_msgque_enqueue tbl (some (msgQueTbl ret.toUInt32.toNat)) msg).1 ≠ 0 ↔ outstanding es = 16) ∧
      (∀ e tbl', QueueStep (msgQueTbl ret.toUInt32.toNat) tbl e tbl' → e.accepted = none → e.received = none →
        tbl' = tbl) := by
  have start := get_counted got ok
  generalize msgQueTbl ret.toUInt32.toNat = q at start run ⊢
  obtain ⟨counted,started,queued⟩ := run_holding start run first small
  have bound := (count tbl q).toNat_lt
  have counts := counted.count
  have ordered : (received es).length ≤ (accepted es).length := by
    have lengths := congrArg List.length queued
    rw [List.length_append,window_length] at lengths
    omega
  have few : (accepted es).length ≤ (received es).length + 16 := by
    rcases Nat.eq_zero_or_pos (accepted es).length with none | some
    · omega
    · exact (counted.used some).2
  have exactly : ((count tbl q).toNat : Int) = outstanding es := by
    rw [outstanding]
    omega
  refine ⟨⟨_,queued.symm⟩,exactly,?_,?_,?_⟩
  · intro some
    have used := counted.used (started.resolve_left some)
    simp only [outstanding]
    omega
  · intro msg
    rw [outstanding] at exactly ⊢
    rw [ne_eq,enqueue_accepted]
    omega
  · intro e tbl' step notIn notOut
    rcases queueStep_cases step with ⟨_,_,same,_⟩ | ⟨msg,rfl,_,_⟩ | ⟨msg,after,rfl,_,_⟩
    · exact same
    · simp [QueueEvent.accepted] at notIn
    · simp [QueueEvent.received] at notOut

/-- Two messages in, one out. -/
theorem queue_is_fifo_first_queue :
    ∃ (first second after : IPC_MSG) (tbl : Mem), first.content = (4,[1,1,1,1]) ∧
      Run (QueueStep (msgQueTbl 0)) firstQueue.tbl [.enqueue first 0,.enqueue second 0,.dequeue second 0 after] tbl ∧
      received [.enqueue first 0,.enqueue second 0,.dequeue second 0 after] <+: [first.content,second.content] := by
  let first : IPC_MSG := { size := 4, data := fun _ => 1 }
  let second : IPC_MSG := { size := 12, data := fun _ => 2 }
  let one := ipc_msgque_enqueue firstQueue.tbl (some (msgQueTbl 0)) first
  let two := ipc_msgque_enqueue one.2 (some (msgQueTbl 0)) second
  let three := ipc_msgque_dequeue two.2 (some (msgQueTbl 0)) second
  have run : Run (QueueStep (msgQueTbl 0)) firstQueue.tbl
      [.enqueue first 0,.enqueue second 0,.dequeue second 0 three.2.1] three.2.2 := by
    have begun : Run (QueueStep (msgQueTbl 0)) firstQueue.tbl [.enqueue first 0] one.2 :=
      Run.one (.enqueue (Prod.ext (by decide +kernel) rfl))
    have more : Run (QueueStep (msgQueTbl 0)) firstQueue.tbl [.enqueue first 0,.enqueue second 0] two.2 :=
      begun.snoc (.enqueue (Prod.ext (by decide +kernel) rfl))
    exact more.snoc (.dequeue (Prod.ext (by decide +kernel) rfl))
  refine ⟨first,second,three.2.1,three.2.2,by decide,run,?_⟩
  refine (queue_is_fifo firstQueue_got (by decide) run ?_ ?_).1
  · intro e head
    cases head
    trivial
  · intro msg ret listed
    simp at listed
    rcases listed with ⟨rfl,_⟩ | ⟨rfl,_⟩ <;> decide

/-- The empty and full tests and the count tell how many messages are outstanding. -/
def Agrees (q : Nat) (es : List QueueEvent) (tbl : Mem) : Prop :=
  (ipc_msgque_isempty tbl (some q) = true ↔ outstanding es = 0) ∧
    (ipc_msgque_isfull tbl (some q) = true ↔ outstanding es = 16) ∧
    ((count tbl q).toNat : Int) = outstanding es

/-- In the states that any run reaches the tests and the count agree with the
    messages outstanding exactly when two or more are: a new queue is not empty
    by the index test, and a queue of one message is. -/
theorem tests_agree_iff {g : Option IPC_MSQINFO} {key ret : INT32} {info : IPC_MSQINFO}
    (got : ipc_msgque_get g key = (ret,some info)) (ok : 0 ≤ ret) {es : List QueueEvent} {tbl : Mem}
    (run : Run (QueueStep (msgQueTbl ret.toUInt32.toNat)) info.tbl es tbl) :
    Agrees (msgQueTbl ret.toUInt32.toNat) es tbl ↔ 2 ≤ outstanding es := by
  have start := get_counted got ok
  generalize msgQueTbl ret.toUInt32.toNat = q at start run ⊢
  obtain ⟨indx,outdx,counts,fresh,used⟩ := run_counted start run
  have bound := (count tbl q).toNat_lt
  have empty : ipc_msgque_isempty tbl (some q) = true ↔
      (15 + (accepted es).length) % 16 = (received es).length % 16 := by
    rw [isempty_iff,← indx,← outdx,UInt32.toNat_inj]
  rw [Agrees,empty,isfull_iff,outstanding]
  rcases Nat.eq_zero_or_pos (accepted es).length with none | some
  · have few := fresh none
    omega
  · have between := used some
    omega

/-- With three messages in the first queue they agree. -/
theorem tests_agree_iff_first_queue : ∃ es tbl, Run (QueueStep (msgQueTbl 0)) firstQueue.tbl es tbl ∧
    outstanding es = 3 ∧ Agrees (msgQueTbl 0) es tbl := by
  obtain ⟨tbl,run,three⟩ := firstQueue_filled ⟨4,fun _ => 1⟩ (n := 3) (by decide)
  exact ⟨_,tbl,run,three,(tests_agree_iff firstQueue_got (by decide) run).mpr (by rw [three]; decide)⟩

/-- A queue that was just handed out holds no message and is not empty by its test. -/
theorem new_queue_disagrees : ∃ info, ipc_msgque_get booted 5 = (0,some info) ∧
    Run (QueueStep (msgQueTbl 0)) info.tbl [] info.tbl ∧ outstanding [] = 0 ∧
    ipc_msgque_isempty info.tbl (some (msgQueTbl 0)) = false ∧ ¬ Agrees (msgQueTbl 0) [] info.tbl := by
  have notEmpty : ipc_msgque_isempty firstQueue.tbl (some (msgQueTbl 0)) = false :=
    Bool.eq_false_iff.mpr (mt isempty_iff.mp (counted_new firstQueue_counted).2)
  refine ⟨firstQueue,firstQueue_got,Run.nil,rfl,notEmpty,?_⟩
  intro agrees
  have none := agrees.1.mpr rfl
  rw [notEmpty] at none
  exact absurd none (by decide)

end IpcMsq.Fifo
