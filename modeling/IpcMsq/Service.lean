import IpcMsq.Api
import IpcMsq.Fifo
import IpcMsq.KeyMap
import IpcMsq.Mailboxes
import IpcMsq.Simulation

/-!
All of `drv_ipc_msgque.c` at once: calls on the table, lookups, posts and dequeues on
twelve queues, and the use of the send buffers, in any order. Over every run whose
accepted messages fit an element the module is a set of mailboxes that are found by key
(`queues_refine_mailboxes`): sixteen messages to a line, and the last one stays.
-/
namespace IpcMsq.Service
open IpcMsq.Memory IpcMsq.Common IpcMsq.Table IpcMsq.Elements IpcMsq.Ring IpcMsq.Runs IpcMsq.Simulation IpcMsq.KeyMap
open IpcMsq.SendBuff
open IpcMsq.Api (fillSndMsg)
open IpcMsq.Fifo (Counted Holding counted_new holding_fits holding_put holding_take holding_refused)
open IpcMsq.Mailboxes

/-- Size and bytes of a message. -/
abbrev Content := UINT32 × List UInt8

/-- A call on the module, with what it returned. -/
inductive ServiceEvent
  | table (e : TableEvent)
  | lookup (key ret : INT32)
  | post (msqid : UINT32) (msg : Option Content) (ret : INT32)
  | dequeue (msqid : UINT32) (ret : INT32) (msg : Content)
  | stale (msqid : UINT32) (ret : INT32) (msg : Content)
  | lock (sendTo : UINT32)
  | fill (sendTo : UINT32)
  | unlock (sendTo : UINT32)

/-- A dequeue gets a pointer; it is stale if the queue was released since it was found. -/
inductive ServiceStep (sign : CharSign) : IPC_MSQINFO → ServiceEvent → IPC_MSQINFO → Prop
  | table {info info' : IPC_MSQINFO} {e : TableEvent} :
      TableStep sign (some info) e (some info') → ServiceStep sign info (.table e) info'
  | lookup {info : IPC_MSQINFO} {key ret : INT32} :
      ipc_msgque_getIDbyKey (some info) key = ret → ServiceStep sign info (.lookup key ret) info
  | post {info info' : IPC_MSQINFO} {msqid msgsize : UINT32} {pmsgaddr : Option Mem} {rcvmsg : IPC_MSG} {ret : INT32} :
      ipc_msgque_msgpost (some info) msqid pmsgaddr msgsize rcvmsg = (ret,some info') →
      ServiceStep sign info (.post msqid (pmsgaddr.map fun payload => (msgsize,bytes payload 0 msgsize.toNat)) ret) info'
  | dequeue {info : IPC_MSQINFO} {msqid : UINT32} {q : Nat} {before after : IPC_MSG} {ret : INT32} {tbl : Mem} :
      ipc_msgque_getQuebyID (some info) msqid = some q → ipc_msgque_dequeue info.tbl (some q) before = (ret,after,tbl) →
      ServiceStep sign info (.dequeue msqid ret after.content) { info with tbl := tbl }
  | stale {info : IPC_MSQINFO} {msqid : UINT32} {before after : IPC_MSG} {ret : INT32} {tbl : Mem} :
      msqid.toNat < 12 → ¬ Live info.tbl (msgQueTbl msqid.toNat) →
      ipc_msgque_dequeue info.tbl (some (msgQueTbl msqid.toNat)) before = (ret,after,tbl) →
      ServiceStep sign info (.stale msqid ret after.content) { info with tbl := tbl }
  | lock {info info' : IPC_MSQINFO} {sendTo : UINT32} {signal : Bool} {p : Option UINT32} :
      ipc_msgque_lockSndMsgBuff (some info) sendTo signal = .returned (p,some info') → ServiceStep sign info (.lock sendTo) info'
  | fill {info : IPC_MSQINFO} {p sendTo msg_size : UINT32} {msg_data : Mem} :
      ServiceStep sign info (.fill sendTo) (fillSndMsg info p sendTo msg_data msg_size)
  | unlock {info info' : IPC_MSQINFO} {sendTo : UINT32} :
      ipc_msgque_unlockSndMsgBuff (some info) sendTo = .returned (some info') → ServiceStep sign info (.unlock sendTo) info'

/-- A message that is accepted fits the data of one element. -/
def Fits : ServiceEvent → Prop
  | .post _ (some msg) ret => ret = 0 → msg.1.toNat ≤ 12
  | .post _ none _ | .table _ | .lookup _ _ | .dequeue _ _ _ | .stale _ _ _ | .lock _ | .fill _ | .unlock _ => True

/-- What a call means for the mailboxes; a post that names no queue, as its pointer is
    null or its size too large, a stale dequeue and the send buffers mean nothing. -/
def meaning : ServiceEvent → List (MailEvent UINT32 Content)
  | .table (.ftok _ _) => []
  | .table (.get key ret) =>
    [if ret = -1 then .duplicate key.toUInt32 else if ret = -2 then .noSlot key.toUInt32
      else .assign ret.toUInt32.toNat key.toUInt32]
  | .table (.rel id ret) => [if ret = 0 then .release id.toNat else if ret = -2 then .kept id.toNat else .absent id.toNat]
  | .lookup key ret => [.lookup key.toUInt32 (if 0 ≤ ret then some ret.toUInt32.toNat else none)]
  | .post _ none _ => []
  | .post msqid (some msg) ret =>
    if ret = 0 then [.line msqid.toNat (.post msg)] else if ret = -4 then [.line msqid.toNat .full]
    else if ret = -3 then [.absent msqid.toNat] else []
  | .dequeue msqid ret msg => [.line msqid.toNat (if ret = 0 then .receive msg else .held)]
  | .stale _ _ _ | .lock _ | .fill _ | .unlock _ => []

/-- What a call does to the messages of queue `i`. -/
def ServiceEvent.onQueue (i : Nat) : ServiceEvent → Option (LineEvent Content)
  | .post msqid (some msg) ret =>
    if msqid.toNat = i then (if ret = 0 then some (.post msg) else if ret = -4 then some .full else none) else none
  | .dequeue msqid ret msg | .stale msqid ret msg =>
    if msqid.toNat = i then some (if ret = 0 then .receive msg else .held) else none
  | .post _ none _ | .table _ | .lookup _ _ | .lock _ | .fill _ | .unlock _ => none

/-- The calls on queue `i`, once it was found. -/
def calls (i : Nat) (es : List ServiceEvent) : List (LineEvent Content) := es.filterMap (ServiceEvent.onQueue i)

/-! ### A queue and its line -/

/-- The queue at `q` has the messages of the line from `outdx` on. -/
def Lined (tbl : Mem) (q : Nat) : Line Content → Prop
  | .unused => Counted tbl q 0 0
  | .waiting ms => ∃ es, Holding q es tbl ∧ Fifo.accepted es = Fifo.received es ++ ms ∧ 0 < (Fifo.accepted es).length ∧
      ∀ m ∈ Fifo.accepted es, m.1.toNat ≤ 12
  | .spoiled => True

section
variable {tbl tbl' : Mem} {q : Nat} {l : Line Content}

/-- The header of a queue that was used counts the messages that wait. -/
theorem holding_count {es : List Fifo.QueueEvent} {ms : List Content} (holding : Holding q es tbl)
    (split : Fifo.accepted es = Fifo.received es ++ ms) (begun : 0 < (Fifo.accepted es).length) :
    (count tbl q).toNat = ms.length ∧ 1 ≤ ms.length ∧ ms.length ≤ 16 ∧ (indx tbl q = outdx tbl q ↔ ms.length = 1) := by
  obtain ⟨⟨indx,outdx,counts,_,used⟩,_,_⟩ := holding
  have between := used begun
  have bound := (count tbl q).toNat_lt
  have lengths := congrArg List.length split
  rw [List.length_append] at lengths
  rw [← UInt32.toNat_inj,indx,outdx]
  omega

theorem lined_new (start : Counted tbl q 0 0) : Holding q [] tbl := ⟨start,.inl rfl,rfl⟩

/-- An accepted message is posted to the line. -/
theorem lined_put (msg : IPC_MSG) (lined : Lined tbl q l) (room : (count tbl q).toNat < 16) (small : msg.size.toNat ≤ 12) :
    ∃ l', LineStep 16 1 l (.post msg.content) l' ∧ Lined (putElement tbl q msg) q l' := by
  cases l with
  | spoiled => exact ⟨.spoiled,.spoiled _,trivial⟩
  | unused =>
    have holding := holding_put (lined_new lined) (by simp [Fifo.accepted]) small room
    have alone : Fifo.accepted ([] ++ [.enqueue msg 0]) = [msg.content] := rfl
    refine ⟨_,.first _,_,holding,rfl,by rw [alone]; exact Nat.one_pos,?_⟩
    intro m listed
    rw [alone,List.mem_singleton] at listed
    rw [listed]
    exact small
  | waiting ms =>
    obtain ⟨es,holding,split,begun,old⟩ := lined
    have more : Fifo.accepted (es ++ [.enqueue msg 0]) = Fifo.accepted es ++ [msg.content] := Fifo.accepted_snoc es _
    obtain ⟨counts,_⟩ := holding_count holding split begun
    refine ⟨_,.post ms _ (by omega),_,holding_put holding old small room,?_,?_,?_⟩
    · rw [more,Fifo.received_enqueue,split,List.append_assoc]
    · rw [more,List.length_append]
      omega
    · intro m listed
      rw [more] at listed
      rcases List.mem_append.mp listed with before | own
      · exact old m before
      · rw [List.mem_singleton.mp own]
        exact small

theorem lined_full (lined : Lined tbl q l) (full : 16 ≤ (count tbl q).toNat) : LineStep 16 1 l .full l := by
  cases l with
  | spoiled => exact .spoiled _
  | unused =>
    have none := (counted_new lined).1
    omega
  | waiting ms =>
    obtain ⟨es,holding,split,begun,_⟩ := lined
    obtain ⟨counts,_,few,_⟩ := holding_count holding split begun
    exact .full ms (by omega)

/-- A message that is handed out is received from the line. -/
theorem lined_take {msg after : IPC_MSG} (lined : Lined tbl q l) (some : indx tbl q ≠ outdx tbl q)
    (taken : takeElement tbl q msg = (after,tbl')) :
    ∃ l', LineStep 16 1 l (.receive after.content) l' ∧ Lined tbl' q l' := by
  cases l with
  | spoiled => exact ⟨.spoiled,.spoiled _,trivial⟩
  | unused => exact ⟨.spoiled,.stray _,trivial⟩
  | waiting ms =>
    obtain ⟨es,holding,split,begun,old⟩ := lined
    obtain ⟨_,several,_,single⟩ := holding_count holding split begun
    have two : 2 ≤ ms.length := by
      have other := mt single.mpr some
      omega
    have next := holding_take holding begun some taken
    have same : Fifo.accepted (es ++ [.dequeue msg 0 after]) = Fifo.accepted es := Fifo.accepted_dequeue es msg after 0
    have more : Fifo.received (es ++ [.dequeue msg 0 after]) = Fifo.received es ++ [after.content] := Fifo.received_snoc es _
    obtain ⟨rest,rfl⟩ : ∃ rest, ms = after.content :: rest := by
      have queued := next.queued
      rw [same,more,split,List.append_assoc] at queued
      exact ⟨_,List.append_cancel_left queued⟩
    rw [List.length_cons] at two
    refine ⟨_,.receive _ rest (by omega),_,next,?_,?_,?_⟩
    · rw [same,more,split,List.append_assoc]
      rfl
    · rwa [same]
    · rwa [same]

theorem lined_held (lined : Lined tbl q l) (none : indx tbl q = outdx tbl q) : LineStep 16 1 l .held l := by
  cases l with
  | spoiled => exact .spoiled _
  | unused => exact absurd none (counted_new lined).2
  | waiting ms =>
    obtain ⟨es,holding,split,begun,_⟩ := lined
    obtain ⟨_,_,_,single⟩ := holding_count holding split begun
    exact .held ms (single.mp none)

end

/-- A queue keeps its line as long as its bytes stay. -/
theorem lined_frame {tbl tbl' : Mem} {i : Nat} {l : Line Content} (same : SameQueue tbl tbl' i)
    (lined : Lined tbl (msgQueTbl i) l) : Lined tbl' (msgQueTbl i) l := by
  obtain ⟨_,_,_,sameIndx,sameOutdx,sameCount⟩ := header_congr fun a (low : msgQueTbl i ≤ a) high =>
    same a low (by simp only [msgQueTbl_eq] at *; omega)
  have counted {e d : Nat} (before : Counted tbl (msgQueTbl i) e d) : Counted tbl' (msgQueTbl i) e d := by
    obtain ⟨indx,outdx,counts,fresh,used⟩ := before
    exact ⟨sameIndx ▸ indx,sameOutdx ▸ outdx,sameCount ▸ counts,fresh,used⟩
  cases l with
  | spoiled => trivial
  | unused => exact counted lined
  | waiting ms =>
    obtain ⟨es,holding,split,begun,old⟩ := lined
    refine ⟨es,⟨counted holding.counted,holding.started,?_⟩,split,begun,old⟩
    -- a message that waits lies inside its queue
    have keep (k : Nat) (waits : k < (Fifo.accepted es).length - (Fifo.received es).length) :
        contentAt tbl' (element (msgQueTbl i) (((Fifo.received es).length + k) % 16)) =
          contentAt tbl (element (msgQueTbl i) (((Fifo.received es).length + k) % 16)) := by
      have fits := holding_fits holding old waits
      have inside (a : Nat) (low : element (msgQueTbl i) (((Fifo.received es).length + k) % 16) ≤ a)
          (high : a < element (msgQueTbl i) (((Fifo.received es).length + k) % 16) + 16) : tbl' a = tbl a := by
        apply same
        all_goals simp only [element_eq,msgQueTbl_eq] at *; omega
      have size := load32_congr fun k' (few : k' < 4) =>
        inside (element (msgQueTbl i) (((Fifo.received es).length + k) % 16) + k') (by omega) (by omega)
      simp only [contentAt,size,Prod.mk.injEq,true_and]
      exact bytes_congr fun k' few => inside _ (by omega) (by omega)
    exact holding.queued.trans (congrArg _ (window_congr keep).symm)

/-! ### The refinement -/

/-- The mailboxes have the keys of the table, and a line for each queue. -/
def Serves (info : IPC_MSQINFO) (B : Boxes 12 UINT32 Content) : Prop :=
  Represents info.tbl B.slots ∧ ∀ i k, B.slots.keyAt i = some k → Lined info.tbl (msgQueTbl i) (B.line i)

section
variable {sign : CharSign} {info info' : IPC_MSQINFO} {B : Boxes 12 UINT32 Content}

/-- What a call on the table does to the map, it does to the mailboxes. -/
theorem serves_table {e : TableEvent} (serves : Serves info B) (step : TableStep sign (some info) e (some info')) :
    ∃ B', Run (MailStep 16 1) B (meaning (.table e)) B' ∧ Serves info' B' := by
  obtain ⟨rep,lines⟩ := serves
  obtain ⟨_,T,⟨⟩,mapped,rep'⟩ := step_simulates rep step
  have codes : ∀ i < 12, Int32.ofNat i ≠ -1 ∧ Int32.ofNat i ≠ -2 := by decide
  -- a queue that stays where it is keeps its line
  have keep {i : Nat} {k : UINT32} (used : B.slots.keyAt i = some k) (notOwn : ∀ id ret, e = .rel id ret → id.toNat ≠ i ∨ ret ≠ 0) :
      Lined info'.tbl (msgQueTbl i) (B.line i) := by
    obtain ⟨inside,live,_⟩ := (rep.keys i k).mp used
    rcases step_keeps step inside live with same | ⟨id,ret,rfl,rfl,_⟩
    · exact lined_frame same (lines i k used)
    · have refused := (notOwn id ret rfl).resolve_left fun other => other rfl
      cases step with
      | rel called =>
        obtain ⟨_,⟨⟩,⟨_,rfl,_⟩ | ⟨done,_⟩⟩ := rel_effect called
        · exact lines _ k used
        · exact absurd done refused
  cases mapped with
  | named path key => exact ⟨B,.nil,rep',fun i k used => keep used (by simp)⟩
  | duplicate key i found => exact ⟨B,.one (.duplicate B _ i found),rep',fun i k used => keep used (by simp)⟩
  | full key absent none => exact ⟨B,.one (.noSlot B _ absent none),rep',fun i k used => keep used (by simp)⟩
  | assigned key i inside fresh free =>
    have assigned : meaning (.table (.get key (Int32.ofNat i))) = [.assign i key.toUInt32] := by
      rw [meaning,if_neg (codes i inside).1,if_neg (codes i inside).2,slotNumber inside]
    rw [assigned]
    refine ⟨_,.one (.assign B i _ inside fresh free),rep',fun j k used => ?_⟩
    by_cases own : j = i
    · subst own
      simp only [Function.update_self]
      cases step with
      | get called =>
        have counted := Fifo.get_counted called (slotNumber_nonneg inside)
        rwa [slotNumber inside] at counted
    · simp only [Function.update_of_ne own]
      rw [SlotMap.keyAt_assign,if_neg own] at used
      exact keep used (by simp)
  | unknown id free => exact ⟨B,.one (.absent B _ free),rep',fun i k used => keep used (by rintro _ _ ⟨⟩; exact .inr (by decide))⟩
  | tokenless id k found => exact ⟨B,.one (.kept B _ k found),rep',fun i k used => keep used (by rintro _ _ ⟨⟩; exact .inr (by decide))⟩
  | released id k found =>
    refine ⟨_,.one (.release B _ k found),rep',fun i k used => ?_⟩
    rw [SlotMap.keyAt_release] at used
    split at used
    · cases used
    · rename_i other
      exact keep used (by rintro _ _ ⟨⟩; exact .inl (Ne.symm other))

/-- A call on one queue changes its line only, and no key. -/
theorem serves_line {i : Nat} {tbl : Mem} {k : UINT32} {l : Line Content} {e : LineEvent Content} (serves : Serves info B)
    (used : B.slots.keyAt i = some k) (headers : ∀ j < 12, SameHeader info.tbl tbl j)
    (others : ∀ j, j ≠ i → SameQueue info.tbl tbl j) (step : LineStep 16 1 (B.line i) e l) (lined : Lined tbl (msgQueTbl i) l) :
    ∃ B', Run (MailStep 16 1) B [.line i e] B' ∧ Serves { info with tbl := tbl } B' := by
  obtain ⟨rep,lines⟩ := serves
  refine ⟨_,.one (.line B i k e l used step),represents_header rep headers,fun j k' used' => ?_⟩
  by_cases own : j = i
  · subst own
    simpa only [Function.update_self] using lined
  · simp only [Function.update_of_ne own]
    exact lined_frame (others j own) (lines j k' used')

theorem serves_post {msqid msgsize : UINT32} {payload : Mem} {rcvmsg : IPC_MSG} {ret : INT32} (serves : Serves info B)
    (small : ret = 0 → msgsize.toNat ≤ 12)
    (called : ipc_msgque_msgpost (some info) msqid (some payload) msgsize rcvmsg = (ret,some info')) :
    ∃ B', Run (MailStep 16 1) B (meaning (.post msqid (some (msgsize,bytes payload 0 msgsize.toNat)) ret)) B' ∧ Serves info' B' := by
  have live {q : Nat} (found : ipc_msgque_getQuebyID (some info) msqid = some q) :
      q = msgQueTbl msqid.toNat ∧ ∃ k, B.slots.keyAt msqid.toNat = some k ∧ Lined info.tbl q (B.line msqid.toNat) := by
    obtain ⟨inside,live,rfl⟩ := getQuebyID_some.mp found
    have used := (serves.1.keys _ _).mpr ⟨inside,live,rfl⟩
    exact ⟨rfl,_,used,serves.2 _ _ used⟩
  by_cases large : 24 < msgsize.toNat
  · simp only [ipc_msgque_msgpost,if_pos (size_refused.mpr large)] at called
    cases called
    exact ⟨B,.nil,serves⟩
  rcases msgpost_cases info msqid payload (show msgsize.toNat ≤ 24 by omega) rcvmsg with
    ⟨none,refused⟩ | ⟨q,found,full,refused⟩ | ⟨q,found,room,done⟩
  · cases called.symm.trans refused
    refine ⟨B,.one (.absent B _ ?_),serves⟩
    cases used : B.slots.keyAt msqid.toNat with
    | none => rfl
    | some k =>
      obtain ⟨inside,live,_⟩ := (serves.1.keys _ k).mp used
      rw [getQuebyID_some.mpr ⟨inside,live,rfl⟩] at none
      cases none
  · cases called.symm.trans refused
    obtain ⟨rfl,k,used,lined⟩ := live found
    exact serves_line serves used (fun j _ => ⟨Iff.rfl,rfl,rfl⟩) (fun _ _ _ _ _ => rfl) (lined_full lined full) lined
  · cases called.symm.trans done
    have small := small rfl
    obtain ⟨rfl,k,used,lined⟩ := live found
    obtain ⟨l,step,lined'⟩ := lined_put ⟨msgsize,copy rcvmsg.data 0 payload msgsize.toNat⟩ lined room small
    have content : (⟨msgsize,copy rcvmsg.data 0 payload msgsize.toNat⟩ : IPC_MSG).content =
        (msgsize,bytes payload 0 msgsize.toNat) := by rw [IPC_MSG.content,bytes_copy]
    rw [content] at step
    exact serves_line serves used (fun j _ => putElement_sameHeader small j) (fun j other => putElement_sameQueue small other)
      step lined'

theorem serves_dequeue {msqid : UINT32} {q : Nat} {before after : IPC_MSG} {ret : INT32} {tbl : Mem} (serves : Serves info B)
    (found : ipc_msgque_getQuebyID (some info) msqid = some q)
    (called : ipc_msgque_dequeue info.tbl (some q) before = (ret,after,tbl)) :
    ∃ B', Run (MailStep 16 1) B (meaning (.dequeue msqid ret after.content)) B' ∧ Serves { info with tbl := tbl } B' := by
  obtain ⟨inside,live,rfl⟩ := getQuebyID_some.mp found
  have used := (serves.1.keys _ _).mpr ⟨inside,live,rfl⟩
  have lined := serves.2 _ _ used
  rcases dequeue_returned called with ⟨rfl,rfl,rfl,empty⟩ | ⟨rfl,nonempty,taken⟩
  · exact serves_line serves used (fun j _ => ⟨Iff.rfl,rfl,rfl⟩) (fun _ _ _ _ _ => rfl) (lined_held lined empty) lined
  · obtain ⟨l,step,lined'⟩ := lined_take lined nonempty taken
    obtain rfl : (takeElement info.tbl (msgQueTbl msqid.toNat) before).2 = tbl := congrArg Prod.snd taken
    exact serves_line serves used (fun j _ => takeElement_sameHeader before j) (fun j other => takeElement_sameQueue before other)
      step lined'

/-- A stale dequeue writes a queue that is in no mailbox. -/
theorem serves_stale {msqid : UINT32} {before after : IPC_MSG} {ret : INT32} {tbl : Mem} (serves : Serves info B)
    (dead : ¬ Live info.tbl (msgQueTbl msqid.toNat))
    (called : ipc_msgque_dequeue info.tbl (some (msgQueTbl msqid.toNat)) before = (ret,after,tbl)) :
    Serves { info with tbl := tbl } B := by
  obtain ⟨rep,lines⟩ := serves
  rcases dequeue_returned called with ⟨_,_,rfl,_⟩ | ⟨_,_,taken⟩
  · exact ⟨rep,lines⟩
  · obtain rfl : (takeElement info.tbl (msgQueTbl msqid.toNat) before).2 = tbl := congrArg Prod.snd taken
    refine ⟨represents_header rep fun j _ => takeElement_sameHeader before j,fun j k used => ?_⟩
    have other : j ≠ msqid.toNat := by
      rintro rfl
      exact dead ((rep.keys _ k).mp used).2.1
    exact lined_frame (takeElement_sameQueue before other) (lines j k used)

/-- The send buffers are no part of the table. -/
theorem lock_tbl {sendTo : UINT32} {signal : Bool} {p : Option UINT32}
    (called : ipc_msgque_lockSndMsgBuff (some info) sendTo signal = .returned (p,some info')) : info'.tbl = info.tbl := by
  obtain ⟨c,semid,_,_,_,after⟩ := lock_returned called
  cases after
  rfl

theorem unlock_tbl {sendTo : UINT32} (called : ipc_msgque_unlockSndMsgBuff (some info) sendTo = .returned (some info')) :
    info'.tbl = info.tbl := by
  cases dest : destination sendTo with
  | none => simp [ipc_msgque_unlockSndMsgBuff,dest] at called
  | some c =>
    cases called.symm.trans (unlock_some dest)
    rfl

/-- Every call of the module is a step of the mailboxes, or means nothing to them. -/
theorem service_simulates : Simulates Serves meaning (Guarded (ServiceStep sign) fun _ => Fits) (MailStep 16 1) := by
  rintro info B e info' serves ⟨step,fits⟩
  cases step with
  | table step => exact serves_table serves step
  | @lookup key ret called =>
    subst called
    have found : meaning (.lookup key (ipc_msgque_getIDbyKey (some info) key)) =
        [.lookup key.toUInt32 (B.slots.lookup key.toUInt32)] := by
      rw [meaning,getIDbyKey_lookup serves.1]
      cases found : B.slots.lookup key.toUInt32 with
      | none => rfl
      | some i =>
        have inside := B.slots.bounded i _ (SlotMap.lookup_some.mp found)
        rw [Option.map_some,Option.getD_some,if_pos (slotNumber_nonneg inside),slotNumber inside]
    rw [found]
    exact ⟨B,.one (.lookup B _),serves⟩
  | @post _ msqid msgsize pmsgaddr rcvmsg ret called =>
    cases pmsgaddr with
    | none =>
      cases called
      exact ⟨B,.nil,serves⟩
    | some payload => exact serves_post serves fits called
  | dequeue found called => exact serves_dequeue serves found called
  | stale _ dead called => exact ⟨B,.nil,serves_stale serves dead called⟩
  | fill => exact ⟨B,.nil,serves⟩
  | lock called => exact ⟨B,.nil,by rwa [Serves,lock_tbl called]⟩
  | unlock called => exact ⟨B,.nil,by rwa [Serves,unlock_tbl called]⟩

end

/-! ### Results -/

/-- Over every run from `ipc_msgque_init` whose accepted messages fit an element, the module
    makes the steps of the mailboxes, with the same answers, and ends with their keys and lines. -/
theorem queues_refine_mailboxes {sign : CharSign} {start info : IPC_MSQINFO} {es : List ServiceEvent} (started : Started (some start))
    (run : Run (ServiceStep sign) start es info) (fits : ∀ e ∈ es, Fits e) :
    ∃ B, Run (MailStep 16 1) empty (es.flatMap meaning) B ∧ Serves info B := by
  obtain ⟨_,⟨⟩,dead,_⟩ := started_spec started
  have serves : Serves start empty := ⟨represents_start dead,fun _ _ used => by cases used⟩
  exact service_simulates.run serves (Run.guarded_events.mpr ⟨run,fits⟩)

/-- A post to a queue with room is accepted. -/
theorem post_accepted {sign : CharSign} {info : IPC_MSQINFO} {msqid msgsize : UINT32} {q : Nat} (payload : Mem)
    (found : ipc_msgque_getQuebyID (some info) msqid = some q) (room : (count info.tbl q).toNat < 16)
    (admitted : msgsize.toNat ≤ 24) : ServiceStep sign info (.post msqid (some (msgsize,bytes payload 0 msgsize.toNat)) 0)
      { info with tbl := putElement info.tbl q ⟨msgsize,copy (fun _ => 0) 0 payload msgsize.toNat⟩ } := by
  have called := msgpost_accepted payload found room admitted ⟨0,fun _ => 0⟩
  exact @ServiceStep.post sign _ _ msqid msgsize (some payload) _ 0 called

/-- The first queue takes two messages and hands out the first. -/
theorem queues_refine_mailboxes_first_queue : ∃ info B, Run (MailStep 16 1) empty [.assign 0 5,.line 0 (.post (4,[1,1,1,1])),
    .line 0 (.post (4,[2,2,2,2])),.line 0 (.receive (4,[1,1,1,1]))] B ∧ Serves info B := by
  have got : Run (ServiceStep .signed) (booted.get booted_some) [.table (.get 5 0)] firstQueue :=
    .one (.table (.get ((congrArg (ipc_msgque_get · 5) (Option.some_get _)).trans firstQueue_got)))
  let put (info : IPC_MSQINFO) (byte : UInt8) : IPC_MSQINFO :=
    { info with tbl := putElement info.tbl (msgQueTbl 0) ⟨4,copy (fun _ => 0) 0 (fun _ => byte) 4⟩ }
  let two := put (put firstQueue 1) 2
  have posts : Run (ServiceStep .signed) firstQueue [.post 0 (some (4,[1,1,1,1])) 0,.post 0 (some (4,[2,2,2,2])) 0] two :=
    (Run.one (post_accepted (fun _ => 1) (by decide +kernel) (by decide +kernel) (by decide))).snoc
      (post_accepted (fun _ => 2) (by decide +kernel) (by decide +kernel) (by decide))
  let taken := takeElement two.tbl (msgQueTbl 0) ⟨0,fun _ => 0⟩
  have content : taken.1.content = (4,[1,1,1,1]) := by decide +kernel
  have dequeue : ServiceStep .signed two (.dequeue 0 0 taken.1.content) { two with tbl := taken.2 } :=
    .dequeue (by decide +kernel) (dequeue_nonempty (by decide +kernel))
  rw [content] at dequeue
  have run := (got.append posts).snoc dequeue
  have started : Started (some (booted.get booted_some)) := by
    rw [Option.some_get]
    exact booted_started
  obtain ⟨B,mails,serves⟩ := queues_refine_mailboxes started run (by
    intro e call
    simp only [List.cons_append,List.nil_append,List.mem_cons,List.not_mem_nil,or_false] at call
    rcases call with rfl | rfl | rfl | rfl
    all_goals simp [Fits])
  exact ⟨_,B,mails,serves⟩

end IpcMsq.Service
