import IpcMsq.Fifo

/-!
The indices of a queue in every state that a run of calls reaches. The slot to be
written next comes as many places after the one to be read next as the count says,
also once the count has wrapped, so every call starts at an element of the ring; and
an enqueue and a dequeue that succeed in either order never meet in one slot, so their
order does not matter.
-/
namespace IpcMsq.Indices
open IpcMsq.Memory IpcMsq.Common IpcMsq.Table IpcMsq.Elements IpcMsq.Runs IpcMsq.Fifo

/-- Both indices name an element, and the one to be written next comes as many places
    after the one to be read next as the count says, modulo sixteen. -/
structure Indexed (tbl : Mem) (q : Nat) : Prop where
  indx : (indx tbl q).toNat < 16
  outdx : (outdx tbl q).toNat < 16
  related : ((Common.indx tbl q).toNat + 1) % 16 = ((Common.outdx tbl q).toNat + (count tbl q).toNat) % 16

/-- The bytes behind the header stay, but for the first `n` of the element. -/
def KeepsElements (q : Nat) (tbl tbl' : Mem) (p n : Nat) : Prop :=
  ∀ a, q + 24 ≤ a → (a < element q p ∨ element q p + n ≤ a) → tbl' a = tbl a

/-- A call that succeeds starts at one of the sixteen elements: an enqueue writes its
    message from there on, as many bytes as it has, also where that is more than the
    element, and a dequeue reads its message from there and writes none. A refused call
    accesses no element. -/
def AccessInside (q : Nat) (tbl : Mem) (e : QueueEvent) (tbl' : Mem) : Prop :=
  match e with
  | .enqueue msg ret =>
    (ret = 0 → (indx tbl' q).toNat < 16 ∧ contentAt tbl' (element q (indx tbl' q).toNat) = msg.content ∧
      KeepsElements q tbl tbl' (indx tbl' q).toNat (4 + msg.size.toNat)) ∧
    (ret ≠ 0 → tbl' = tbl)
  | .dequeue before ret after =>
    (ret = 0 → (outdx tbl q).toNat < 16 ∧ after.content = contentAt tbl (element q (outdx tbl q).toNat) ∧
      KeepsElements q tbl tbl' (outdx tbl q).toNat 0) ∧
    (ret ≠ 0 → tbl' = tbl ∧ after = before)

section
variable {tbl tbl' : Mem} {q : Nat}

/-- 2^32 is a multiple of sixteen, so a count that wrapped is as good as one that did not. -/
theorem indexed_of_counted {e d : Nat} (inv : Counted tbl q e d) : Indexed tbl q := by
  have indx := inv.indx
  have outdx := inv.outdx
  have counts := inv.count
  exact ⟨by omega,by omega,by omega⟩

theorem indexed_isempty (inv : Indexed tbl q) : ipc_msgque_isempty tbl (some q) = true ↔ (count tbl q).toNat % 16 = 1 := by
  obtain ⟨low,low',related⟩ := inv
  rw [isempty_iff,← UInt32.toNat_inj]
  omega

theorem indexed_access (inv : Indexed tbl q) {e : QueueEvent} (step : QueueStep q tbl e tbl') : AccessInside q tbl e tbl' := by
  have refusal : (-1 : INT32) ≠ 0 := by decide
  cases step with
  | @enqueue _ msg ret called =>
    rcases enqueue_returned called with ⟨rfl,rfl,_⟩ | ⟨rfl,_,rfl⟩
    · exact ⟨fun ok => absurd ok refusal,fun _ => rfl⟩
    · refine ⟨fun _ => ?_,fun bad => absurd rfl bad⟩
      rw [putElement_indx]
      exact ⟨nextSlot_lt tbl q,putElement_content,fun a behind apart =>
        putElement_outside (by omega) (by omega) (by omega)⟩
  | @dequeue _ before after ret called =>
    rcases dequeue_returned called with ⟨rfl,rfl,rfl,_⟩ | ⟨rfl,_,taken⟩
    · exact ⟨fun ok => absurd ok refusal,fun _ => ⟨rfl,rfl⟩⟩
    · have content := takeElement_content tbl q before
      rw [taken] at content
      refine ⟨fun _ => ⟨inv.outdx,content,fun a behind _ => ?_⟩,fun bad => absurd rfl bad⟩
      have kept : (takeElement tbl q before).2 a = tbl a := takeElement_outside (by omega) (by omega)
      rwa [taken] at kept

end

/-- For every queue that `ipc_msgque_get` hands out and every run of calls on it, of
    messages of any size: the indices name elements and the count relates them, the
    queue counts as empty exactly at a count of one modulo sixteen, and the next call
    starts at one of the sixteen elements. -/
theorem ring_indices {g : Option IPC_MSQINFO} {key ret : INT32} {info : IPC_MSQINFO}
    (got : ipc_msgque_get g key = (ret,some info)) (ok : 0 ≤ ret) {es : List QueueEvent} {tbl : Mem}
    (run : Run (QueueStep (msgQueTbl ret.toUInt32.toNat)) info.tbl es tbl) :
    Indexed tbl (msgQueTbl ret.toUInt32.toNat) ∧
      (ipc_msgque_isempty tbl (some (msgQueTbl ret.toUInt32.toNat)) = true ↔
        (count tbl (msgQueTbl ret.toUInt32.toNat)).toNat % 16 = 1) ∧
      ∀ e tbl', QueueStep (msgQueTbl ret.toUInt32.toNat) tbl e tbl' → AccessInside (msgQueTbl ret.toUInt32.toNat) tbl e tbl' := by
  have inv := indexed_of_counted (run_counted (get_counted got ok) run)
  exact ⟨inv,indexed_isempty inv,fun e tbl' step => indexed_access inv step⟩

/-- A dequeue from a new queue wraps the count. -/
theorem ring_indices_wrapped : ∃ (before after : IPC_MSG) (tbl : Mem),
    Run (QueueStep (msgQueTbl 0)) firstQueue.tbl [.dequeue before 0 after] tbl ∧
      (count tbl (msgQueTbl 0)).toNat = 2 ^ 32 - 1 ∧ Indexed tbl (msgQueTbl 0) := by
  obtain ⟨after,tbl,run⟩ := firstQueue_dequeued
  have wrapped := (run_counted firstQueue_counted run).count
  have bound := (count tbl (msgQueTbl 0)).toNat_lt
  simp only [accepted,received,List.filterMap,QueueEvent.accepted,QueueEvent.received,if_true,List.length_nil,
    List.length_singleton] at wrapped
  exact ⟨_,after,tbl,run,by omega,(ring_indices firstQueue_got (by decide) run).1⟩

/-! ### Either order -/

/-- The messages have one size, and the same bytes in the array and for sixteen more
    behind it; they are equal altogether unless they are longer than that. -/
def SameMessage (one two : IPC_MSG) : Prop :=
  two.size = one.size ∧ (∀ k < 28, two.data k = one.data k) ∧ (one.size.toNat ≤ 28 → two = one)

section
variable {tbl tbl' : Mem} {q : Nat} {msg before : IPC_MSG}

/-- What the two operations write, they write in either order. -/
theorem put_take_comm : putElement (takeElement tbl q before).2 q msg = (takeElement (putElement tbl q msg) q before).2 := by
  obtain ⟨_,_,_,indxKept⟩ := takeElement_header tbl q before
  obtain ⟨_,_,_,outdxKept⟩ := putElement_header tbl q msg
  have slot : nextSlot (takeElement tbl q before).2 q = nextSlot tbl q := by rw [nextSlot,nextSlot,indxKept]
  have behind : q + 24 ≤ element q (nextSlot tbl q) := by rw [element_eq]; omega
  have taken : (takeElement (putElement tbl q msg) q before).2 = store32 (store32 (putElement tbl q msg) (q + 16)
      ((outdx (putElement tbl q msg) q + 1) % 16)) (q + 20) (count (putElement tbl q msg) q - 1) := takeElement_mem
  rw [putElement_eq,taken,slot,indxKept,takeElement_count,outdxKept,putElement_count,putElement_eq,takeElement_mem,
    UInt32.sub_add_cancel,UInt32.add_sub_cancel]
  -- the writes of the enqueue but for the count, which both operations write
  let put (m : Mem) : Mem := copy (store32 (store32 m (q + 12) ((indx tbl q + 1) % 16)) (element q (nextSlot tbl q)) msg.size)
    (element q (nextSlot tbl q) + 4) msg.data msg.size.toNat
  have passes (m : Mem) (a : Nat) (v : UINT32) (low : q + 16 ≤ a) (high : a + 4 ≤ q + 24) :
      put (store32 m a v) = store32 (put m) a v := by
    have indx (m : Mem) (w : UINT32) : store32 (store32 m a v) (q + 12) w = store32 (store32 m (q + 12) w) a v :=
      copy_comm (by omega)
    have size (m : Mem) (w : UINT32) : store32 (store32 m a v) (element q (nextSlot tbl q)) w =
        store32 (store32 m (element q (nextSlot tbl q)) w) a v := copy_comm (by omega)
    have data (m src : Mem) (n : Nat) : copy (store32 m a v) (element q (nextSlot tbl q) + 4) src n =
        store32 (copy m (element q (nextSlot tbl q) + 4) src n) a v := copy_comm (by omega)
    simp only [put,indx,size,data]
  have twice (m : Mem) (v w : UINT32) : store32 (store32 m (q + 20) v) (q + 20) w = store32 m (q + 20) w := copy_copy (byteOf w)
  have swap (m : Mem) (v w : UINT32) : store32 (store32 m (q + 20) v) (q + 16) w = store32 (store32 m (q + 16) w) (q + 20) v :=
    copy_comm (by omega)
  calc store32 (put (store32 (store32 tbl (q + 16) ((outdx tbl q + 1) % 16)) (q + 20) (count tbl q - 1))) (q + 20) (count tbl q)
    _ = store32 (put (store32 tbl (q + 16) ((outdx tbl q + 1) % 16))) (q + 20) (count tbl q) := by
      rw [passes _ _ _ (by omega) (by omega),twice]
    _ = store32 (store32 (put tbl) (q + 16) ((outdx tbl q + 1) % 16)) (q + 20) (count tbl q) := by
      rw [passes _ _ _ (by omega) (by omega)]
    _ = store32 (store32 (store32 (put tbl) (q + 20) (count tbl q + 1)) (q + 16) ((outdx tbl q + 1) % 16)) (q + 20)
        (count tbl q) := by rw [swap,twice]

/-- Where both orders succeed, the enqueue writes neither the slot that the dequeue
    reads nor the one behind it. -/
theorem slots_apart (inv : Indexed tbl q) (room : (count tbl q).toNat < 16) (left : (count (takeElement tbl q before).2 q).toNat < 16)
    (some : indx tbl q ≠ outdx tbl q) (some' : indx (putElement tbl q msg) q ≠ outdx (putElement tbl q msg) q) :
    nextSlot tbl q ≠ (outdx tbl q).toNat ∧ nextSlot tbl q ≠ (outdx tbl q).toNat + 1 := by
  obtain ⟨low,low',related⟩ := inv
  have one : (1 : UINT32).toNat = 1 := rfl
  rw [takeElement_count,UInt32.toNat_sub,one] at left
  rw [ne_eq,← UInt32.toNat_inj] at some
  rw [ne_eq,← UInt32.toNat_inj,putElement_indx,(putElement_header tbl q msg).2.2.2] at some'
  rw [nextSlot] at some' ⊢
  omega

/-- Two tables with the same slot at `outdx`, and the same behind it, hand out the same message. -/
theorem sameMessage_of_slots (same : outdx tbl' q = outdx tbl q)
    (slots : ∀ k < 32, tbl' (element q (outdx tbl q).toNat + k) = tbl (element q (outdx tbl q).toNat + k)) :
    SameMessage (takeElement tbl q before).1 (takeElement tbl' q before).1 := by
  have size : load32 tbl' (element q (outdx tbl q).toNat) = load32 tbl (element q (outdx tbl q).toNat) :=
    load32_congr fun k inside => slots k (by omega)
  have data (k : Nat) (near : k < 28) : tbl' (element q (outdx tbl q).toNat + 4 + k) = tbl (element q (outdx tbl q).toNat + 4 + k) := by
    have byte := slots (4 + k) (by omega)
    rwa [← Nat.add_assoc] at byte
  simp only [SameMessage,takeElement_fst,same,size,IPC_MSG.mk.injEq,true_and]
  refine ⟨fun k near => ?_,fun short => copy_congr fun k inside => data k (by omega)⟩
  simp only [copy,Nat.sub_zero,Nat.zero_le,true_and,data k near]

end

/-- For every queue that `ipc_msgque_get` hands out, every run of calls on it, of
    messages of any size, and every message that fits an element: if an enqueue of it
    and a dequeue succeed in either order, they leave the same table and the dequeue
    hands out the same message. -/
theorem post_receive_commute {g : Option IPC_MSQINFO} {key ret : INT32} {info : IPC_MSQINFO}
    (got : ipc_msgque_get g key = (ret,some info)) (ok : 0 ≤ ret) {es : List QueueEvent} {tbl : Mem}
    (run : Run (QueueStep (msgQueTbl ret.toUInt32.toNat)) info.tbl es tbl) {m before after after' : IPC_MSG}
    {posted both received both' : Mem} (small : m.size.toNat ≤ 12)
    (first : ipc_msgque_enqueue tbl (some (msgQueTbl ret.toUInt32.toNat)) m = (0,posted))
    (second : ipc_msgque_dequeue posted (some (msgQueTbl ret.toUInt32.toNat)) before = (0,after,both))
    (first' : ipc_msgque_dequeue tbl (some (msgQueTbl ret.toUInt32.toNat)) before = (0,after',received))
    (second' : ipc_msgque_enqueue received (some (msgQueTbl ret.toUInt32.toNat)) m = (0,both')) :
    both' = both ∧ SameMessage after' after := by
  have inv := indexed_of_counted (run_counted (get_counted got ok) run)
  generalize msgQueTbl ret.toUInt32.toNat = q at inv first second first' second'
  obtain ⟨⟨⟩,_⟩ | ⟨_,room,rfl⟩ := enqueue_returned first
  obtain ⟨⟨⟩,_⟩ | ⟨_,some',taken⟩ := dequeue_returned second
  obtain ⟨⟨⟩,_⟩ | ⟨_,some,taken'⟩ := dequeue_returned first'
  obtain ⟨⟨⟩,_⟩ | ⟨_,left,rfl⟩ := enqueue_returned second'
  have received : received = (takeElement tbl q before).2 := by rw [taken']
  have both : both = (takeElement (putElement tbl q m) q before).2 := by rw [taken]
  have after : after = (takeElement (putElement tbl q m) q before).1 := by rw [taken]
  have after' : after' = (takeElement tbl q before).1 := by rw [taken']
  subst received both after after'
  refine ⟨put_take_comm,sameMessage_of_slots (putElement_header tbl q m).2.2.2 fun k near => ?_⟩
  obtain ⟨apart,behind⟩ := slots_apart inv room left some some'
  have low := inv.outdx
  have slot := nextSlot_lt tbl q
  refine putElement_outside ?_ ?_ ?_
  all_goals simp only [element_eq]; omega

/-- On a queue with two messages both orders succeed. -/
theorem post_receive_commute_two_messages : ∃ (es : List QueueEvent) (m before after after' : IPC_MSG) (tbl both both' : Mem),
    Run (QueueStep (msgQueTbl 0)) firstQueue.tbl es tbl ∧
      Run (QueueStep (msgQueTbl 0)) tbl [.enqueue m 0,.dequeue before 0 after] both ∧
      Run (QueueStep (msgQueTbl 0)) tbl [.dequeue before 0 after',.enqueue m 0] both' ∧
      after.content = (4,[1,1,1,1]) ∧ both' = both ∧ SameMessage after' after := by
  let first : IPC_MSG := { size := 4, data := fun _ => 1 }
  let second : IPC_MSG := { size := 12, data := fun _ => 2 }
  let one := ipc_msgque_enqueue firstQueue.tbl (some (msgQueTbl 0)) first
  let two := ipc_msgque_enqueue one.2 (some (msgQueTbl 0)) second
  have run : Run (QueueStep (msgQueTbl 0)) firstQueue.tbl [.enqueue first 0,.enqueue second 0] two.2 :=
    (Run.one (.enqueue (Prod.ext (by decide +kernel) rfl))).snoc (.enqueue (Prod.ext (by decide +kernel) rfl))
  have returned {call : INT32 × Mem} (ok : call.1 = 0) : call = (0,call.2) := Prod.ext ok rfl
  have handing {call : INT32 × IPC_MSG × Mem} (ok : call.1 = 0) : call = (0,call.2.1,call.2.2) := Prod.ext ok rfl
  obtain ⟨posted,after,both,kept,handed,content⟩ : ∃ posted after both,
      ipc_msgque_enqueue two.2 (some (msgQueTbl 0)) second = (0,posted) ∧
      ipc_msgque_dequeue posted (some (msgQueTbl 0)) second = (0,after,both) ∧ after.content = (4,[1,1,1,1]) :=
    ⟨_,_,_,returned (by decide +kernel),handing (by decide +kernel),by decide +kernel⟩
  obtain ⟨after',received,both',handed',kept'⟩ : ∃ after' received both',
      ipc_msgque_dequeue two.2 (some (msgQueTbl 0)) second = (0,after',received) ∧
      ipc_msgque_enqueue received (some (msgQueTbl 0)) second = (0,both') :=
    ⟨_,_,_,handing (by decide +kernel),returned (by decide +kernel)⟩
  exact ⟨_,second,second,after,after',two.2,both,both',run,(Run.one (.enqueue kept)).snoc (.dequeue handed),
    (Run.one (.dequeue handed')).snoc (.enqueue kept'),content,
    post_receive_commute firstQueue_got (by decide) run (by decide) kept handed handed' kept'⟩

end IpcMsq.Indices
