import IpcMsq.Indices
import IpcMsq.Service

/-!
Messages longer than an element. `ipc_msgque_msgpost` admits 24 bytes and an element
has twelve, so a message may run on into the next element, and from the last one into
the queue behind. It ends within the first twelve bytes there, short of the cursors:
every queue counts its own calls, whatever is posted to it or to the others
(`cursors_survive`). Its key and its contents depend on the messages to itself and to
the queue before it alone (`key_is_held`, `short_queue_is_fifo`), and what a message
that runs over makes of the next queue is what its last words say
(`sixteenth_message_rewrites_next`).
-/
namespace IpcMsq.Overflow
open IpcMsq.Memory IpcMsq.Common IpcMsq.Table IpcMsq.Elements IpcMsq.Runs IpcMsq.KeyMap IpcMsq.Mailboxes IpcMsq.Service
open IpcMsq.Fifo (Counted QueueEvent QueueStep queueStep_cases counted_new counted_put counted_take get_counted)
open IpcMsq.Indices (AccessInside indexed_of_counted indexed_access)

/-- Queue `i` is the same from the cursors on. -/
def SameBehind (tbl tbl' : Mem) (i : Nat) : Prop := ∀ a, msgQueTbl i + 12 ≤ a → a < msgQueTbl (i + 1) → tbl' a = tbl a

/-- Everything that a call can do to queue `j`. -/
inductive Effect (j : Nat) (tbl : Mem) (e : ServiceEvent) (tbl' : Mem) : Prop
  | got (key : INT32) : e = .table (.get key (Int32.ofNat j)) → ¬ Live tbl (msgQueTbl j) → tbl' = assignQueue tbl j key →
      Effect j tbl e tbl'
  | released (id : UINT32) : e = .table (.rel id 0) → id.toNat = j → SameBehind tbl tbl' j → ¬ Live tbl' (msgQueTbl j) →
      Effect j tbl e tbl'
  | put (msg : IPC_MSG) : e.onQueue j = some (.post msg.content) → (count tbl (msgQueTbl j)).toNat < 16 →
      tbl' = putElement tbl (msgQueTbl j) msg → Effect j tbl e tbl'
  | take (before after : IPC_MSG) : e.onQueue j = some (.receive after.content) →
      indx tbl (msgQueTbl j) ≠ outdx tbl (msgQueTbl j) → takeElement tbl (msgQueTbl j) before = (after,tbl') → Effect j tbl e tbl'
  | full : e.onQueue j = some .full → 16 ≤ (count tbl (msgQueTbl j)).toNat → tbl' = tbl → Effect j tbl e tbl'
  | held : e.onQueue j = some .held → indx tbl (msgQueTbl j) = outdx tbl (msgQueTbl j) → tbl' = tbl → Effect j tbl e tbl'
  | spilled (msqid : UINT32) (msg : Content) : e = .post msqid (some msg) 0 → msqid.toNat + 1 = j → 12 < msg.1.toNat →
      SameBehind tbl tbl' j → Effect j tbl e tbl'
  | apart : e.onQueue j = none → (∀ key, e ≠ .table (.get key (Int32.ofNat j))) → (∀ id, e = .table (.rel id 0) → id.toNat ≠ j) →
      SameQueue tbl tbl' j → Effect j tbl e tbl'

section
variable {tbl tbl' : Mem} {i j : Nat}

theorem sameQueue_behind (same : SameQueue tbl tbl' i) : SameBehind tbl tbl' i :=
  fun a low high => same a (by omega) high

theorem sameBehind_cursors (same : SameBehind tbl tbl' i) : indx tbl' (msgQueTbl i) = indx tbl (msgQueTbl i) ∧
    outdx tbl' (msgQueTbl i) = outdx tbl (msgQueTbl i) ∧ count tbl' (msgQueTbl i) = count tbl (msgQueTbl i) := by
  refine ⟨?_,?_,?_⟩
  all_goals exact load32_congr fun k inside => same _ (by omega) (by simp only [msgQueTbl_eq]; omega)

theorem counted_behind {e d : Nat} (same : SameBehind tbl tbl' i) (inv : Counted tbl (msgQueTbl i) e d) :
    Counted tbl' (msgQueTbl i) e d := by
  obtain ⟨sameIndx,sameOutdx,sameCount⟩ := sameBehind_cursors same
  obtain ⟨indx,outdx,counts,fresh,used⟩ := inv
  exact ⟨sameIndx ▸ indx,sameOutdx ▸ outdx,sameCount ▸ counts,fresh,used⟩

/-- A message that is admitted reaches no queue but its own and the first twelve bytes of the next. -/
theorem putElement_admitted (tbl : Mem) (msg : IPC_MSG) (admitted : msg.size.toNat ≤ 24) (other : j ≠ i) :
    SameBehind tbl (putElement tbl (msgQueTbl i) msg) j ∧ (j ≠ i + 1 → SameQueue tbl (putElement tbl (msgQueTbl i) msg) j) := by
  have slot := nextSlot_lt tbl (msgQueTbl i)
  constructor
  · intro a low high
    refine putElement_outside ?_ ?_ ?_
    all_goals simp only [element_eq,msgQueTbl_eq] at *; omega
  · intro notNext a low high
    refine putElement_outside ?_ ?_ ?_
    all_goals simp only [element_eq,msgQueTbl_eq] at *; omega

end

/-- A release writes one token and one word of the queue. -/
theorem released_behind (tbl : Mem) {i : Nat} (inside : i < 12) (j : Nat) :
    SameBehind tbl (store32 (store8 tbl (msgQueTokenStr j) 0) (msgQueTbl i) 0) i := by
  intro a low high
  simp only [msgQueTbl_eq] at *
  rw [store32_outside (by omega),store8_outside _ (by rw [msgQueTokenStr_eq]; omega)]

section
variable {sign : CharSign} {info info' : IPC_MSQINFO} {j : Nat}

theorem table_effect {e : TableEvent} (inside : j < 12) (step : TableStep sign (some info) e (some info')) :
    Effect j info.tbl (.table e) info'.tbl := by
  cases step with
  | @ftok _ path key called =>
    refine .apart rfl (by simp) (by simp) ?_
    rcases ftok_cases sign info path with ⟨_,full⟩ | ⟨i,_,_,_,stored⟩
    · cases called.symm.trans full
      exact fun _ _ _ => rfl
    · cases called.symm.trans stored
      exact ftok_same info.tbl i path j inside
  | @get _ key ret called =>
    have refused (code : ∀ i < 12, ret ≠ Int32.ofNat i) (same : info' = info) : Effect j info.tbl (.table (.get key ret)) info'.tbl := by
      refine .apart rfl ?_ (by simp) (same ▸ fun _ _ _ => rfl)
      rintro key' ⟨⟩
      exact code j inside rfl
    rcases get_cases info key with ⟨_,duplicate⟩ | ⟨_,_,none⟩ | ⟨i,_,low,dead,_,done⟩
    · cases called.symm.trans duplicate
      exact refused (by decide) rfl
    · cases called.symm.trans none
      exact refused (by decide) rfl
    · cases called.symm.trans done
      by_cases own : i = j
      · subst own
        exact .got key rfl dead rfl
      · refine .apart rfl ?_ (by simp) (assignQueue_other (Ne.symm own))
        intro key' same
        injection same with same
        injection same with _ same
        exact own (slotNumber_injective low inside same)
  | @rel _ id ret called =>
    have refused (code : ret ≠ 0) (same : info' = info) : Effect j info.tbl (.table (.rel id ret)) info'.tbl := by
      refine .apart rfl (by simp) ?_ (same ▸ fun _ _ _ => rfl)
      rintro id' ⟨⟩
      exact absurd rfl code
    rcases rel_cases sign info id with ⟨_,none⟩ | ⟨_,_,_,none⟩ | ⟨token,low,_,found,done⟩
    · cases called.symm.trans none
      exact refused (by decide) rfl
    · cases called.symm.trans none
      exact refused (by decide) rfl
    · cases called.symm.trans done
      obtain ⟨l,_,rfl,_⟩ := getTokenByKey_some.mp found
      obtain ⟨keep,dead⟩ := released_spec info.tbl id.toNat l
      by_cases own : id.toNat = j
      · subst own
        exact .released id rfl rfl (released_behind info.tbl low l) dead
      · refine .apart rfl (by simp) ?_ (keep j inside (Ne.symm own))
        rintro id' ⟨⟩
        exact own

theorem post_effect {msqid msgsize : UINT32} {payload : Mem} {rcvmsg : IPC_MSG} {ret : INT32}
    (called : ipc_msgque_msgpost (some info) msqid (some payload) msgsize rcvmsg = (ret,some info')) :
    Effect j info.tbl (.post msqid (some (msgsize,bytes payload 0 msgsize.toNat)) ret) info'.tbl := by
  have apart (none : ServiceEvent.onQueue j (.post msqid (some (msgsize,bytes payload 0 msgsize.toNat)) ret) = none)
      (same : SameQueue info.tbl info'.tbl j) :
      Effect j info.tbl (.post msqid (some (msgsize,bytes payload 0 msgsize.toNat)) ret) info'.tbl :=
    .apart none (by simp) (by simp) same
  by_cases large : 24 < msgsize.toNat
  · have refused : ipc_msgque_msgpost (some info) msqid (some payload) msgsize rcvmsg = (-2,some info) := by
      simp only [ipc_msgque_msgpost,if_pos (size_refused.mpr large)]
    cases called.symm.trans refused
    exact apart (by simp [ServiceEvent.onQueue]) fun _ _ _ => rfl
  · have admitted : msgsize.toNat ≤ 24 := by omega
    rcases msgpost_cases info msqid payload admitted rcvmsg with ⟨_,refused⟩ | ⟨q,found,full,refused⟩ | ⟨q,found,room,done⟩
    · cases called.symm.trans refused
      exact apart (by simp [ServiceEvent.onQueue]) fun _ _ _ => rfl
    · cases called.symm.trans refused
      obtain ⟨_,_,rfl⟩ := getQuebyID_some.mp found
      by_cases own : msqid.toNat = j
      · subst own
        exact .full (by simp [ServiceEvent.onQueue]) full rfl
      · exact apart (by simp [ServiceEvent.onQueue,own]) fun _ _ _ => rfl
    · cases called.symm.trans done
      obtain ⟨_,_,rfl⟩ := getQuebyID_some.mp found
      have content : (⟨msgsize,copy rcvmsg.data 0 payload msgsize.toNat⟩ : IPC_MSG).content =
          (msgsize,bytes payload 0 msgsize.toNat) := by rw [IPC_MSG.content,bytes_copy]
      by_cases own : msqid.toNat = j
      · subst own
        exact .put _ (by simp [ServiceEvent.onQueue,content]) room rfl
      · obtain ⟨behind,notNext⟩ := putElement_admitted info.tbl
          ⟨msgsize,copy rcvmsg.data 0 payload msgsize.toNat⟩ admitted (Ne.symm own)
        by_cases next : msqid.toNat + 1 = j
        · by_cases long : 12 < msgsize.toNat
          · exact .spilled msqid _ rfl next long behind
          · exact apart (by simp [ServiceEvent.onQueue,own])
              (putElement_sameQueue (by simpa using long) (Ne.symm own))
        · exact apart (by simp [ServiceEvent.onQueue,own]) (notNext (Ne.symm next))

theorem dequeue_effect {e : ServiceEvent} {msqid : UINT32} {before after : IPC_MSG} {ret : INT32} {tbl : Mem}
    (event : e = .dequeue msqid ret after.content ∨ e = .stale msqid ret after.content)
    (called : ipc_msgque_dequeue info.tbl (some (msgQueTbl msqid.toNat)) before = (ret,after,tbl)) : Effect j info.tbl e tbl := by
  have onQueue : e.onQueue j = if msqid.toNat = j then some (if ret = 0 then .receive after.content else .held) else none := by
    rcases event with rfl | rfl <;> rfl
  have apart (other : msqid.toNat ≠ j) (same : SameQueue info.tbl tbl j) : Effect j info.tbl e tbl := by
    refine .apart (by rw [onQueue,if_neg other]) ?_ ?_ same
    all_goals rcases event with rfl | rfl <;> simp
  rcases dequeue_returned called with ⟨rfl,rfl,rfl,empty⟩ | ⟨rfl,nonempty,taken⟩
  · by_cases own : msqid.toNat = j
    · subst own
      exact .held (by rw [onQueue]; simp) empty rfl
    · exact apart own fun _ _ _ => rfl
  · obtain rfl : (takeElement info.tbl (msgQueTbl msqid.toNat) before).2 = tbl := congrArg Prod.snd taken
    by_cases own : msqid.toNat = j
    · subst own
      exact .take before after (by rw [onQueue]; simp) nonempty taken
    · exact apart own (takeElement_sameQueue before (Ne.symm own))

theorem service_effect {e : ServiceEvent} (inside : j < 12) (step : ServiceStep sign info e info') :
    Effect j info.tbl e info'.tbl := by
  cases step with
  | table step => exact table_effect inside step
  | lookup | fill => exact .apart rfl (by simp) (by simp) fun _ _ _ => rfl
  | lock called => exact .apart rfl (by simp) (by simp) (lock_tbl called ▸ fun _ _ _ => rfl)
  | unlock called => exact .apart rfl (by simp) (by simp) (unlock_tbl called ▸ fun _ _ _ => rfl)
  | @post _ msqid msgsize pmsgaddr rcvmsg ret called =>
    cases pmsgaddr with
    | none =>
      cases called
      exact .apart rfl (by simp) (by simp) fun _ _ _ => rfl
    | some payload => exact post_effect called
  | @dequeue msqid q before after ret tbl found called =>
    obtain ⟨_,_,rfl⟩ := getQuebyID_some.mp found
    exact dequeue_effect (.inl rfl) called
  | stale _ _ called => exact dequeue_effect (.inr rfl) called

end

/-! ### Cursors -/

theorem calls_snoc (j : Nat) (es : List ServiceEvent) (e : ServiceEvent) : calls j (es ++ [e]) = calls j es ++ (e.onQueue j).toList := by
  cases h : e.onQueue j <;> simp [calls,h]

/-- Queue `j` has taken and handed out the messages of the calls on it. -/
def Tallied (j : Nat) (es : List ServiceEvent) (tbl : Mem) : Prop :=
  Counted tbl (msgQueTbl j) (posted (calls j es)).length (received (calls j es)).length

/-- Every call keeps the tally, but one that hands out the queue anew. -/
theorem tallied_step {j : Nat} {es : List ServiceEvent} {tbl tbl' : Mem} {e : ServiceEvent} (inv : Tallied j es tbl)
    (effect : Effect j tbl e tbl') (notAgain : ∀ key, e ≠ .table (.get key (Int32.ofNat j))) : Tallied j (es ++ [e]) tbl' := by
  rw [Tallied,calls_snoc]
  have quiet (none : e.onQueue j = none) (same : SameBehind tbl tbl' j) : Counted tbl' (msgQueTbl j)
      (posted (calls j es ++ (e.onQueue j).toList)).length (received (calls j es ++ (e.onQueue j).toList)).length := by
    rw [none,Option.toList_none,List.append_nil]
    exact counted_behind same inv
  cases effect with
  | got key again _ _ => exact absurd again (notAgain key)
  | released id call _ same _ => exact quiet (by rw [call]; rfl) same
  | apart none _ _ same => exact quiet none (sameQueue_behind same)
  | spilled msqid msg call next _ same => exact quiet (by rw [call,ServiceEvent.onQueue,if_neg (by omega)]) same
  | put msg call room done =>
    rw [call,done,Option.toList_some,posted_snoc,received_snoc]
    simpa [LineEvent.posted,LineEvent.received] using counted_put inv room
  | take before after call some taken =>
    rw [call,Option.toList_some,posted_snoc,received_snoc]
    simpa [LineEvent.posted,LineEvent.received] using (counted_take inv some taken).1
  | full call _ same | held call _ same =>
    rw [call,same,Option.toList_some,posted_snoc,received_snoc]
    simpa [Tallied,LineEvent.posted,LineEvent.received] using inv

/-- How many bytes of a message a call may write. -/
def longest : QueueEvent → Nat
  | .enqueue msg _ => msg.size.toNat
  | .dequeue _ _ _ => 0

/-- A call on a queue writes no byte in front of it, and behind it only the end of a message. -/
theorem queueStep_reach {tbl tbl' : Mem} {i : Nat} {e : QueueEvent} (step : QueueStep (msgQueTbl i) tbl e tbl') {a : Nat}
    (apart : a < msgQueTbl i ∨ msgQueTbl (i + 1) + (longest e - 12) ≤ a) : tbl' a = tbl a := by
  have slot := nextSlot_lt tbl (msgQueTbl i)
  rcases queueStep_cases step with ⟨_,_,rfl,_⟩ | ⟨msg,rfl,_,rfl⟩ | ⟨msg,after,rfl,_,taken⟩
  · rfl
  · simp only [longest] at apart
    refine putElement_outside ?_ ?_ ?_
    all_goals simp only [element_eq,msgQueTbl_eq] at *; omega
  · obtain rfl : (takeElement tbl (msgQueTbl i) msg).2 = tbl' := congrArg Prod.snd taken
    refine takeElement_outside ?_ ?_
    all_goals simp only [msgQueTbl_eq] at *; omega

section
variable {sign : CharSign} {g : Option IPC_MSQINFO} {key ret : INT32} {u info info' : IPC_MSQINFO} {es : List ServiceEvent}

/-- A slot that is handed out is one of the twelve. -/
theorem got_inside (got : ipc_msgque_get g key = (ret,some u)) (ok : 0 ≤ ret) :
    ret.toUInt32.toNat < 12 ∧ ret = Int32.ofNat ret.toUInt32.toNat ∧ HasKey u.tbl ret.toUInt32.toNat key.toUInt32 := by
  cases g with
  | none => cases got
  | some before =>
    rcases get_cases before key with ⟨_,refused⟩ | ⟨_,_,refused⟩ | ⟨i,_,inside,_,_,done⟩
    · cases got.symm.trans refused; exact absurd ok (by decide)
    · cases got.symm.trans refused; exact absurd ok (by decide)
    · cases got.symm.trans done
      rw [slotNumber inside]
      exact ⟨inside,rfl,assignQueue_hasKey inside⟩

theorem tallied_run (got : ipc_msgque_get g key = (ret,some u)) (ok : 0 ≤ ret) (run : Run (ServiceStep sign) u es info)
    (once : ∀ key', .table (.get key' ret) ∉ es) : Tallied ret.toUInt32.toNat es info.tbl := by
  obtain ⟨inside,number,_⟩ := got_inside got ok
  refine run.invariant (I := fun es info => (∀ key', .table (.get key' ret) ∉ es) → Tallied ret.toUInt32.toNat es info.tbl)
    ?_ ?_ once
  · exact fun _ => get_counted got ok
  · intro es t e v _ inv step once
    refine tallied_step (inv fun key' listed => once key' (List.mem_append_left _ listed)) (service_effect inside step) ?_
    rintro key' rfl
    exact once key' (by rw [← number]; simp)

/-- From the call that hands a queue out until it is handed out again, its cursors and its
    count tell the calls on it alone; each call starts at one of its sixteen elements, and a
    message ends at most as many bytes behind the last of them as it is longer than twelve.
    This is so over every run of calls on the table, posts of any size and dequeues, on this
    queue and on all others, also after its release and after messages that ran over it. -/
theorem cursors_survive (got : ipc_msgque_get g key = (ret,some u)) (ok : 0 ≤ ret) (run : Run (ServiceStep sign) u es info)
    (once : ∀ key', .table (.get key' ret) ∉ es) :
    Counted info.tbl (msgQueTbl ret.toUInt32.toNat) (posted (calls ret.toUInt32.toNat es)).length
        (received (calls ret.toUInt32.toNat es)).length ∧
      ∀ e tbl', QueueStep (msgQueTbl ret.toUInt32.toNat) info.tbl e tbl' →
        AccessInside (msgQueTbl ret.toUInt32.toNat) info.tbl e tbl' ∧
        ∀ a, a < msgQueTbl ret.toUInt32.toNat ∨ msgQueTbl (ret.toUInt32.toNat + 1) + (longest e - 12) ≤ a → tbl' a = info.tbl a := by
  have counted := tallied_run got ok run once
  exact ⟨counted,fun e tbl' step => ⟨indexed_access (indexed_of_counted counted) step,fun _ => queueStep_reach step⟩⟩

end

/-- The first queue with a message of 24 bytes. -/
theorem longPost : ∃ info, Run (ServiceStep .signed) firstQueue [.post 0 (some (24,bytes (fun _ => 1) 0 24)) 0] info :=
  ⟨_,.one (post_accepted (fun _ => 1) firstQueue_live (by rw [(counted_new Fifo.firstQueue_counted).1]; decide) (by decide))⟩

theorem cursors_survive_long_post : ∃ info : IPC_MSQINFO, Counted info.tbl (msgQueTbl 0) 1 0 := by
  obtain ⟨info,run⟩ := longPost
  exact ⟨info,(cursors_survive firstQueue_got (by decide) run (by simp)).1⟩

/-! ### Keys -/

/-- The messages posted to the queue before `j` fit their elements. -/
def ShortBefore (j : Nat) (es : List ServiceEvent) : Prop :=
  ∀ msqid msg, .post msqid (some msg) 0 ∈ es → msqid.toNat + 1 = j → msg.1.toNat ≤ 12

/-- The key that slot `j` was handed out with, up to its release. -/
def heldAfter (j : Nat) (h : Option UINT32) : ServiceEvent → Option UINT32
  | .table (.get key ret) => if ret = Int32.ofNat j then some key.toUInt32 else h
  | .table (.rel id ret) => if ret = 0 ∧ id.toNat = j then none else h
  | .table (.ftok _ _) | .lookup _ _ | .post _ _ _ | .dequeue _ _ _ | .stale _ _ _ | .lock _ | .fill _ | .unlock _ => h

def held (j : Nat) (es : List ServiceEvent) : Option UINT32 := es.foldl (heldAfter j) none

theorem shortBefore_init {j : Nat} {es : List ServiceEvent} {e : ServiceEvent} (short : ShortBefore j (es ++ [e])) :
    ShortBefore j es ∧ ∀ msqid msg, e = .post msqid (some msg) 0 → msqid.toNat + 1 = j → msg.1.toNat ≤ 12 := by
  constructor
  · exact fun msqid msg listed => short msqid msg (List.mem_append_left _ listed)
  · rintro msqid msg rfl
    exact short msqid msg (by simp)

/-- A call changes the key of slot `j` by handing it out or releasing it only. -/
theorem held_step {j : Nat} {tbl tbl' : Mem} {e : ServiceEvent} {h : Option UINT32} (inside : j < 12)
    (inv : ∀ k, HasKey tbl j k ↔ h = some k) (effect : Effect j tbl e tbl')
    (short : ∀ msqid msg, e = .post msqid (some msg) 0 → msqid.toNat + 1 = j → msg.1.toNat ≤ 12) (k : UINT32) :
    HasKey tbl' j k ↔ heldAfter j h e = some k := by
  have kept (same : SameHeader tbl tbl' j) (stays : heldAfter j h e = h) : HasKey tbl' j k ↔ heldAfter j h e = some k := by
    rw [stays,hasKey_header same]
    exact inv k
  have own (call : e.onQueue j ≠ none) : heldAfter j h e = h := by
    cases e with
    | table | lookup | lock | fill | unlock => exact absurd rfl call
    | post | dequeue | stale => rfl
  cases effect with
  | got key call _ done =>
    have has : HasKey tbl' j key.toUInt32 := done ▸ assignQueue_hasKey inside
    rw [call,heldAfter,if_pos rfl,Option.some_inj]
    exact ⟨fun also => has.2.2.symm.trans also.2.2,fun same => same ▸ has⟩
  | released id call number _ dead =>
    rw [call,heldAfter,if_pos ⟨rfl,number⟩]
    exact ⟨fun has => absurd has.2.1 dead,fun none => by cases none⟩
  | put msg call _ done =>
    obtain ⟨init,share,id,_⟩ := putElement_header tbl (msgQueTbl j) msg
    exact kept (done ▸ ⟨by rw [Live,Live,init],share,id⟩) (own (by simp [call]))
  | take before after call _ taken =>
    have same : SameHeader tbl (takeElement tbl (msgQueTbl j) before).2 j := takeElement_sameHeader before j
    rw [taken] at same
    exact kept same (own (by simp [call]))
  | full call _ same | held call _ same => exact kept (same ▸ ⟨Iff.rfl,rfl,rfl⟩) (own (by simp [call]))
  | spilled msqid msg call next long _ =>
    have fits := short msqid msg call next
    omega
  | apart _ notGot notReleased same =>
    refine kept (sameQueue_header same) ?_
    cases e with
    | lookup | post | dequeue | stale | lock | fill | unlock => rfl
    | table e =>
      cases e with
      | ftok => rfl
      | get key ret =>
        refine if_neg ?_
        rintro rfl
        exact notGot key rfl
      | rel id ret =>
        refine if_neg ?_
        rintro ⟨rfl,number⟩
        exact notReleased id rfl number

/-- Over every run from `ipc_msgque_init`, with messages of any size to all other queues: if
    the messages to the queue before it fit, a queue is there with a key exactly from the
    call that hands it out for the key to its release. -/
theorem key_is_held {sign : CharSign} {start info : IPC_MSQINFO} {es : List ServiceEvent} (started : Started (some start))
    (run : Run (ServiceStep sign) start es info) {j : Nat} (inside : j < 12) (short : ShortBefore j es) (k : UINT32) :
    HasKey info.tbl j k ↔ held j es = some k := by
  refine run.invariant (I := fun es info => ShortBefore j es → ∀ k, HasKey info.tbl j k ↔ held j es = some k) ?_ ?_ short k
  · intro _ k
    obtain ⟨_,⟨⟩,dead,_⟩ := started_spec started
    exact ⟨fun has => absurd has.2.1 (dead j inside),fun none => by cases none⟩
  · intro es t e v _ inv step short
    obtain ⟨before,last⟩ := shortBefore_init short
    rw [held,List.foldl_append]
    exact held_step inside (inv before) (service_effect inside step) last

/-- A second queue behind the first. -/
def secondQueue : IPC_MSQINFO := (ipc_msgque_get (some firstQueue) 6).2.get (by decide +kernel)

theorem secondQueue_got : ipc_msgque_get (some firstQueue) 6 = (1,some secondQueue) :=
  Prod.ext (by decide +kernel) (Option.some_get _).symm

/-- The second queue keeps its key when it takes a message of 24 bytes, and the first a short one. -/
theorem key_is_held_long_post : ∃ es info, Run (ServiceStep .signed) secondQueue es info ∧
    posted (calls 0 es) = [(4,[1,1,1,1])] ∧ (posted (calls 1 es)).map Prod.fst = [24] ∧ HasKey info.tbl 1 6 := by
  have got : Run (ServiceStep .signed) (booted.get booted_some) [.table (.get 5 0),.table (.get 6 1)] secondQueue :=
    (Run.one (.table (.get ((congrArg (ipc_msgque_get · 5) (Option.some_get _)).trans firstQueue_got)))).snoc
      (.table (.get secondQueue_got))
  have posts : Run (ServiceStep .signed) secondQueue
      [.post 0 (some (4,[1,1,1,1])) 0,.post 1 (some (24,bytes (fun _ => 2) 0 24)) 0] _ :=
    (Run.one (post_accepted (q := msgQueTbl 0) (fun _ => 1) (by decide +kernel) (by decide +kernel) (by decide))).snoc
      (post_accepted (q := msgQueTbl 1) (fun _ => 2) (by decide +kernel) (by decide +kernel) (by decide))
  refine ⟨_,_,posts,rfl,rfl,(key_is_held (j := 1) ?_ (got.append posts) (by decide) ?_ 6).mpr (by decide)⟩
  · rw [Option.some_get]
    exact booted_started
  · intro msqid msg listed next
    simp only [List.cons_append,List.nil_append,List.mem_cons,List.not_mem_nil,reduceCtorEq,false_or,or_false,
      ServiceEvent.post.injEq,Option.some_inj] at listed
    rcases listed with ⟨rfl,rfl,_⟩ | ⟨rfl,_⟩
    · decide
    · exact absurd next (by decide)

/-! ### Contents -/

/-- The messages posted to queue `j` and to the queue before it fit their elements. -/
def ShortAround (j : Nat) (es : List ServiceEvent) : Prop :=
  ∀ msqid msg, .post msqid (some msg) 0 ∈ es → msqid.toNat = j ∨ msqid.toNat + 1 = j → msg.1.toNat ≤ 12

theorem onQueue_post {j : Nat} {e : ServiceEvent} {m : Content} (call : e.onQueue j = some (.post m)) :
    ∃ msqid, e = .post msqid (some m) 0 ∧ msqid.toNat = j := by
  cases e with
  | table | lookup | lock | fill | unlock => cases call
  | dequeue | stale =>
    simp only [ServiceEvent.onQueue] at call
    split_ifs at call <;> cases call
  | post msqid msg ret =>
    cases msg with
    | none => cases call
    | some msg =>
      simp only [ServiceEvent.onQueue] at call
      split_ifs at call with own ok full
      all_goals cases call
      exact ⟨msqid,ok ▸ rfl,own⟩

/-- What a call does to a queue that is there and amid short messages, its line allows. -/
theorem lined_step {j : Nat} {tbl tbl' : Mem} {e : ServiceEvent} {k : UINT32} {l : Line Content} (has : HasKey tbl j k)
    (lined : Lined tbl (msgQueTbl j) l) (effect : Effect j tbl e tbl') (notReleased : ∀ id, e = .table (.rel id 0) → id.toNat ≠ j)
    (short : ∀ msqid msg, e = .post msqid (some msg) 0 → msqid.toNat = j ∨ msqid.toNat + 1 = j → msg.1.toNat ≤ 12) :
    HasKey tbl' j k ∧ ∃ l', Run (LineStep 16 1) l (e.onQueue j).toList l' ∧ Lined tbl' (msgQueTbl j) l' := by
  cases effect with
  | got key _ dead _ => exact absurd has.2.1 dead
  | released id call own _ _ => exact absurd own (notReleased id call)
  | put msg call room done =>
    obtain ⟨msqid,posts,own⟩ := onQueue_post call
    have small : msg.size.toNat ≤ 12 := short msqid _ posts (.inl own)
    obtain ⟨l',step,lined'⟩ := lined_put _ lined room small
    rw [call,done]
    exact ⟨(hasKey_header (putElement_sameHeader small j)).mpr has,l',.one step,lined'⟩
  | take before after call some taken =>
    obtain ⟨l',step,lined'⟩ := lined_take lined some taken
    have same : SameHeader tbl (takeElement tbl (msgQueTbl j) before).2 j := takeElement_sameHeader before j
    rw [taken] at same
    rw [call]
    exact ⟨(hasKey_header same).mpr has,l',.one step,lined'⟩
  | full call full same =>
    rw [call,same]
    exact ⟨has,l,.one (lined_full lined full),lined⟩
  | held call none same =>
    rw [call,same]
    exact ⟨has,l,.one (lined_held lined none),lined⟩
  | spilled msqid msg call next long _ =>
    have fits := short msqid msg call (.inr next)
    omega
  | apart none _ _ same =>
    rw [none]
    exact ⟨(hasKey_congr same).mpr has,l,.nil,lined_frame same lined⟩

section
variable {sign : CharSign} {g : Option IPC_MSQINFO} {key ret : INT32} {u info : IPC_MSQINFO} {es : List ServiceEvent}

theorem lined_run (got : ipc_msgque_get g key = (ret,some u)) (ok : 0 ≤ ret) (run : Run (ServiceStep sign) u es info)
    (notReleased : ∀ id, .table (.rel id 0) ∈ es → id ≠ ret.toUInt32) (short : ShortAround ret.toUInt32.toNat es) :
    HasKey info.tbl ret.toUInt32.toNat key.toUInt32 ∧ ∃ l, Run (LineStep 16 1) .unused (calls ret.toUInt32.toNat es) l ∧
      Lined info.tbl (msgQueTbl ret.toUInt32.toNat) l := by
  obtain ⟨inside,_,has⟩ := got_inside got ok
  refine run.invariant (I := fun es info => (∀ id, .table (.rel id 0) ∈ es → id ≠ ret.toUInt32) →
    ShortAround ret.toUInt32.toNat es → HasKey info.tbl ret.toUInt32.toNat key.toUInt32 ∧
      ∃ l, Run (LineStep 16 1) .unused (calls ret.toUInt32.toNat es) l ∧ Lined info.tbl (msgQueTbl ret.toUInt32.toNat) l)
    ?_ ?_ notReleased short
  · exact fun _ _ => ⟨has,.unused,.nil,get_counted got ok⟩
  · intro es t e v _ inv step notReleased short
    obtain ⟨has,l,before,lined⟩ := inv (fun id listed => notReleased id (List.mem_append_left _ listed))
      fun msqid msg listed => short msqid msg (List.mem_append_left _ listed)
    obtain ⟨has',l',last,lined'⟩ := lined_step has lined (service_effect inside step)
      (by rintro id rfl; exact fun same => notReleased id (by simp) (UInt32.toNat_inj.mp same))
      (by rintro msqid msg rfl; exact short msqid msg (by simp))
    rw [calls_snoc]
    exact ⟨has',l',before.append last,lined'⟩

/-- From the `ipc_msgque_get` that hands it out to its release every queue is a bounded
    queue of its own, amid any calls on the table and on the other queues, as long as the
    messages to it and to the queue before it fit and none is received before the first
    was posted: it keeps its key, what was received is what was posted, from the first
    message on, and its count is the difference, from one to sixteen once there was one. -/
theorem short_queue_is_fifo (got : ipc_msgque_get g key = (ret,some u)) (ok : 0 ≤ ret) (run : Run (ServiceStep sign) u es info)
    (notReleased : ∀ id, .table (.rel id 0) ∈ es → id ≠ ret.toUInt32) (short : ShortAround ret.toUInt32.toNat es)
    (first : NoStray (calls ret.toUInt32.toNat es)) :
    HasKey info.tbl ret.toUInt32.toNat key.toUInt32 ∧
      received (calls ret.toUInt32.toNat es) <+: posted (calls ret.toUInt32.toNat es) ∧
      (count info.tbl (msgQueTbl ret.toUInt32.toNat)).toNat + (received (calls ret.toUInt32.toNat es)).length =
        (posted (calls ret.toUInt32.toNat es)).length ∧
      (calls ret.toUInt32.toNat es ≠ [] → 1 ≤ (count info.tbl (msgQueTbl ret.toUInt32.toNat)).toNat ∧
        (count info.tbl (msgQueTbl ret.toUInt32.toNat)).toNat ≤ 16) := by
  obtain ⟨has,l,lineRun,lined⟩ := lined_run got ok run notReleased short
  have explained := line_run (by decide) lineRun first
  refine ⟨has,?_⟩
  cases l with
  | spoiled => exact absurd explained id
  | unused =>
    rw [show calls ret.toUInt32.toNat es = [] from explained]
    exact ⟨List.nil_prefix,(counted_new lined).1,fun none => absurd rfl none⟩
  | waiting ms =>
    obtain ⟨split,_,_⟩ := explained
    obtain ⟨_,holding,accounts,begun,_⟩ := lined
    obtain ⟨counts,least,most,_⟩ := holding_count holding accounts begun
    rw [split]
    refine ⟨⟨ms,rfl⟩,?_,fun _ => by omega⟩
    rw [List.length_append,counts,Nat.add_comm]

end

/-- The first queue takes two messages and hands one out, with a long one to the second queue in between. -/
theorem short_queue_is_fifo_two_queues : ∃ (info : IPC_MSQINFO) (es : List ServiceEvent), Run (ServiceStep .signed) firstQueue es info ∧
    posted (calls 0 es) = [(4,[1,1,1,1]),(4,[3,3,3,3])] ∧ received (calls 0 es) = [(4,[1,1,1,1])] ∧
    received (calls 0 es) <+: posted (calls 0 es) := by
  let put (info : IPC_MSQINFO) (q : Nat) (byte : UInt8) (size : UINT32) : IPC_MSQINFO :=
    { info with tbl := putElement info.tbl q ⟨size,copy (fun _ => 0) 0 (fun _ => byte) size.toNat⟩ }
  let three := put (put (put secondQueue (msgQueTbl 0) 1 4) (msgQueTbl 1) 2 24) (msgQueTbl 0) 3 4
  have posts : Run (ServiceStep .signed) firstQueue [.table (.get 6 1),.post 0 (some (4,[1,1,1,1])) 0,
      .post 1 (some (24,bytes (fun _ => 2) 0 24)) 0,.post 0 (some (4,[3,3,3,3])) 0] three :=
    (((Run.one (.table (.get secondQueue_got))).snoc (post_accepted (fun _ => 1) (by decide +kernel) (by decide +kernel) (by decide))).snoc
      (post_accepted (fun _ => 2) (by decide +kernel) (by decide +kernel) (by decide))).snoc
      (post_accepted (fun _ => 3) (by decide +kernel) (by decide +kernel) (by decide))
  let last := ipc_msgque_dequeue three.tbl (some (msgQueTbl 0)) ⟨0,fun _ => 0⟩
  have taken (call : INT32 × IPC_MSG × Mem) (ok : call.1 = 0) : call = (0,call.2.1,call.2.2) := Prod.ext ok rfl
  have content : last.2.1.content = (4,[1,1,1,1]) := by decide +kernel
  have dequeue : ServiceStep .signed three (.dequeue 0 0 last.2.1.content) { three with tbl := last.2.2 } :=
    @ServiceStep.dequeue .signed three 0 (msgQueTbl 0) ⟨0,fun _ => 0⟩ last.2.1 0 last.2.2 (by decide +kernel)
      (taken last (by decide +kernel))
  rw [content] at dequeue
  have run := posts.snoc dequeue
  refine ⟨_,_,run,rfl,rfl,?_⟩
  have fifo := short_queue_is_fifo firstQueue_got (by decide) run (by simp) ?_ (by rintro m ⟨⟩)
  · exact fifo.2.1
  · intro msqid msg listed near
    simp only [List.cons_append,List.nil_append,List.mem_cons,List.not_mem_nil,reduceCtorEq,false_or,or_false,
      ServiceEvent.post.injEq,Option.some_inj] at listed
    rcases listed with ⟨rfl,rfl,_⟩ | ⟨rfl,rfl,_⟩ | ⟨rfl,rfl,_⟩
    · decide
    · revert near
      decide
    · decide

/-! ### Messages that run over -/

/-- Word `k` of a message, from the byte of that number on. -/
def word (msg : Content) (k : Nat) : UINT32 := load32 (msg.2.getD · 0) k

section
variable {sign : CharSign} {g : Option IPC_MSQINFO} {key ret : INT32} {u info info' : IPC_MSQINFO} {es : List ServiceEvent}
variable {msg : Content}

/-- A post that returns 0 puts its message, of up to 24 bytes. -/
theorem posted_put {msqid : UINT32} (posts : ServiceStep sign info (.post msqid (some msg) 0) info') :
    ∃ m : IPC_MSG, m.content = msg ∧ m.size.toNat ≤ 24 ∧ info'.tbl = putElement info.tbl (msgQueTbl msqid.toNat) m := by
  generalize given : some msg = sent at posts
  generalize code : (0 : INT32) = ret at posts
  cases posts with
  | @post _ msqid msgsize pmsgaddr rcvmsg _ called =>
    subst code
    cases pmsgaddr with
    | none => cases called
    | some payload =>
      cases given
      by_cases large : 24 < msgsize.toNat
      · simp only [ipc_msgque_msgpost,if_pos (size_refused.mpr large)] at called
        cases called
      · rcases msgpost_cases info msqid payload (show msgsize.toNat ≤ 24 by omega) rcvmsg with
          ⟨_,refused⟩ | ⟨_,_,_,refused⟩ | ⟨q,found,_,done⟩
        · cases called.symm.trans refused
        · cases called.symm.trans refused
        · cases called.symm.trans done
          obtain ⟨_,_,rfl⟩ := getQuebyID_some.mp found
          exact ⟨⟨msgsize,_⟩,by rw [IPC_MSG.content,bytes_copy],by simpa using large,rfl⟩

/-- Only every sixteenth message to a queue can leave it, and its bytes from the
    thirteenth on are then those of the next queue. -/
theorem message_lands (got : ipc_msgque_get g key = (ret,some u)) (ok : 0 ≤ ret) (run : Run (ServiceStep sign) u es info)
    (once : ∀ key', .table (.get key' ret) ∉ es) (posts : ServiceStep sign info (.post ret.toUInt32 (some msg) 0) info') :
    ((posted (calls ret.toUInt32.toNat es)).length % 16 ≠ 15 → ∀ j, j ≠ ret.toUInt32.toNat → SameQueue info.tbl info'.tbl j) ∧
      ((posted (calls ret.toUInt32.toNat es)).length % 16 = 15 → ∀ k, 12 ≤ k → k < msg.1.toNat →
        info'.tbl (msgQueTbl (ret.toUInt32.toNat + 1) + (k - 12)) = msg.2.getD k 0) := by
  obtain ⟨m,rfl,admitted,put⟩ := posted_put posts
  have slot : nextSlot info.tbl (msgQueTbl ret.toUInt32.toNat) = (posted (calls ret.toUInt32.toNat es)).length % 16 := by
    rw [nextSlot,(tallied_run got ok run once).indx]
    omega
  rw [put]
  constructor
  · intro early j other a low high
    have place := nextSlot_lt info.tbl (msgQueTbl ret.toUInt32.toNat)
    refine putElement_outside ?_ ?_ ?_
    all_goals simp only [element_eq,msgQueTbl_eq] at *; omega
  · intro sixteenth k late inside
    have address : msgQueTbl (ret.toUInt32.toNat + 1) + (k - 12) =
        element (msgQueTbl ret.toUInt32.toNat) (nextSlot info.tbl (msgQueTbl ret.toUInt32.toNat)) + 4 + k := by
      rw [slot,sixteenth,element_eq,msgQueTbl_eq,msgQueTbl_eq]
      omega
    have byte : (bytes m.data 0 m.size.toNat).getD k 0 = m.data (0 + k) := bytes_getD inside 0
    rw [Nat.zero_add] at byte
    rw [address,putElement_data inside]
    exact byte.symm

/-- The sixteenth message after any sixteen's multiple, if it is as long as a post admits,
    makes of the next queue what its last three words say: initialised or not, of any key,
    with any id. A lookup of that key then answers with that id if no other queue has the key. -/
theorem sixteenth_message_rewrites_next (got : ipc_msgque_get g key = (ret,some u)) (ok : 0 ≤ ret)
    (run : Run (ServiceStep sign) u es info) (once : ∀ key', .table (.get key' ret) ∉ es)
    (posts : ServiceStep sign info (.post ret.toUInt32 (some msg) 0) info')
    (sixteenth : (posted (calls ret.toUInt32.toNat es)).length % 16 = 15) (long : msg.1 = 24) (next : ret.toUInt32.toNat + 1 < 12) :
    (∀ k, HasKey info'.tbl (ret.toUInt32.toNat + 1) k ↔ word msg 12 = CFG_IPC_INIT_KEY ∧ word msg 16 = k) ∧
      msqid info'.tbl (msgQueTbl (ret.toUInt32.toNat + 1)) = word msg 20 ∧
      ∀ forged : INT32, word msg 12 = CFG_IPC_INIT_KEY → word msg 16 = forged.toUInt32 →
        (∀ j, j ≠ ret.toUInt32.toNat + 1 → ¬ HasKey info'.tbl j forged.toUInt32) →
        ipc_msgque_getIDbyKey (some info') forged = (word msg 20).toInt32 := by
  obtain ⟨_,lands⟩ := message_lands got ok run once posts
  have size : msg.1.toNat = 24 := by rw [long]; rfl
  have header (n : Nat) (few : n + 4 ≤ 12) : load32 info'.tbl (msgQueTbl (ret.toUInt32.toNat + 1) + n) = word msg (12 + n) := by
    refine load32_congr fun k inside => ?_
    have byte := lands sixteenth (12 + n + k) (by omega) (by omega)
    rwa [show 12 + n + k - 12 = n + k by omega,← Nat.add_assoc] at byte
  have init : initkey info'.tbl (msgQueTbl (ret.toUInt32.toNat + 1)) = word msg 12 := header 0 (by omega)
  have share : sharekey info'.tbl (msgQueTbl (ret.toUInt32.toNat + 1)) = word msg 16 := header 4 (by omega)
  have id : msqid info'.tbl (msgQueTbl (ret.toUInt32.toNat + 1)) = word msg 20 := header 8 (by omega)
  constructor
  · intro k
    rw [HasKey,Live,init,share]
    exact and_iff_right next
  refine ⟨id,?_⟩
  · intro forged live same alone
    rcases getIDbyKey_cases info' forged with ⟨j,has,found⟩ | ⟨absent,_⟩
    · have here : j = ret.toUInt32.toNat + 1 := by
        by_contra other
        exact alone j other has
      rw [found,here,id]
    · exact absurd ⟨next,init.trans live,share.trans same⟩ (absent (ret.toUInt32.toNat + 1))

end

/-- The first queue with up to fifteen messages. -/
theorem filled {n : Nat} (few : n ≤ 15) : ∃ es info, Run (ServiceStep .signed) firstQueue es info ∧
    (∀ key', .table (.get key' 0) ∉ es) ∧ (posted (calls 0 es)).length = n ∧
    ipc_msgque_getQuebyID (some info) 0 = some (msgQueTbl 0) ∧ (count info.tbl (msgQueTbl 0)).toNat = n := by
  induction n with
  | zero => exact ⟨[],firstQueue,.nil,by simp,rfl,firstQueue_live,(counted_new Fifo.firstQueue_counted).1⟩
  | succ n ih =>
    obtain ⟨es,info,run,once,number,found,counts⟩ := ih (by omega)
    obtain ⟨inside,live,_⟩ := getQuebyID_some.mp found
    have one : (1 : UINT32).toNat = 1 := rfl
    have posts : ServiceStep .signed info (.post 0 (some (4,[1,1,1,1])) 0) _ :=
      @post_accepted .signed info 0 4 _ (fun _ => 1) found (by omega) (by decide)
    refine ⟨_,_,run.snoc posts,?_,?_,?_,?_⟩
    · simpa using once
    · have more : (posted (calls 0 es ++ [.post (4,[1,1,1,1])])).length = n + 1 := by
        rw [posted_snoc,List.length_append,number]
        rfl
      rw [calls_snoc]
      exact more
    · exact getQuebyID_some.mpr ⟨inside,Eq.trans (putElement_header _ _ _).1 live,rfl⟩
    · rw [putElement_count,UInt32.toNat_add,one]
      omega

/-- The sixteenth message to the first queue makes the second one, with key 9 and id 7. -/
theorem sixteenth_message_rewrites_next_forged : ∃ info : IPC_MSQINFO, HasKey info.tbl 1 9 := by
  obtain ⟨es,info,run,once,number,found,counts⟩ := filled (n := 15) (by decide)
  let payload : Mem := fun a => [0,0,0,0,0,0,0,0,0,0,0,0,0x78,0x56,0x34,0x12,9,0,0,0,7,0,0,0].getD a 0
  have posts : ServiceStep .signed info (.post 0 (some (24,bytes payload 0 24)) 0) _ :=
    @post_accepted .signed info 0 24 _ payload found (by omega) (by decide)
  obtain ⟨has,_⟩ := sixteenth_message_rewrites_next firstQueue_got (by decide) run once posts (by
    rw [show (0 : INT32).toUInt32.toNat = 0 from rfl,number]) rfl (by decide)
  exact ⟨_,(has 9).mpr (by decide +kernel)⟩

end IpcMsq.Overflow
