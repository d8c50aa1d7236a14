import IpcMsq.Runs
import IpcMsq.SlotMap

/-!
Mailboxes that are found by key: a slot map with a line of messages for each slot. A
line takes up to `cap` messages and keeps the last `keep` of them back. A line that
never had a message is not empty to a receiver: it hands out one that nobody posted,
and after that the line says nothing. A line that hands out no such message is a bounded
queue (`line_run`).
-/
namespace IpcMsq.Mailboxes
open IpcMsq.Runs

variable {n cap keep : Nat} {κ μ : Type}

/-! ### One line -/

inductive Line (μ : Type)
  | unused
  | waiting (ms : List μ)
  | spoiled

inductive LineEvent (μ : Type)
  | post (m : μ)
  | full
  | receive (m : μ)
  | held

inductive LineStep (cap keep : Nat) : Line μ → LineEvent μ → Line μ → Prop
  | first (m : μ) : LineStep cap keep .unused (.post m) (.waiting [m])
  | post (ms : List μ) (m : μ) : ms.length < cap → LineStep cap keep (.waiting ms) (.post m) (.waiting (ms ++ [m]))
  | full (ms : List μ) : ms.length = cap → LineStep cap keep (.waiting ms) .full (.waiting ms)
  | receive (m : μ) (ms : List μ) : keep ≤ ms.length → LineStep cap keep (.waiting (m :: ms)) (.receive m) (.waiting ms)
  | held (ms : List μ) : ms.length = keep → LineStep cap keep (.waiting ms) .held (.waiting ms)
  | stray (m : μ) : LineStep cap keep .unused (.receive m) .spoiled
  | spoiled (e : LineEvent μ) : LineStep cap keep .spoiled e .spoiled

def LineEvent.posted : LineEvent μ → Option μ
  | .post m => some m
  | .full | .receive _ | .held => none

def LineEvent.received : LineEvent μ → Option μ
  | .receive m => some m
  | .full | .post _ | .held => none

/-- The messages a line took. -/
def posted (es : List (LineEvent μ)) : List μ := es.filterMap LineEvent.posted
/-- The messages a line handed out. -/
def received (es : List (LineEvent μ)) : List μ := es.filterMap LineEvent.received

/-- No message is handed out before one was posted. -/
def NoStray (es : List (LineEvent μ)) : Prop := ∀ m, es.head? ≠ some (.receive m)

/-- The events so far explain the line: it is unused without any, and else holds what
    was posted and not received. -/
def Explains (cap : Nat) (es : List (LineEvent μ)) : Line μ → Prop
  | .unused => es = []
  | .waiting ms => posted es = received es ++ ms ∧ ms.length ≤ cap ∧ es ≠ []
  | .spoiled => False

theorem posted_snoc (es : List (LineEvent μ)) (e : LineEvent μ) : posted (es ++ [e]) = posted es ++ e.posted.toList := by
  cases h : e.posted <;> simp [posted,h]

theorem received_snoc (es : List (LineEvent μ)) (e : LineEvent μ) : received (es ++ [e]) = received es ++ e.received.toList := by
  cases h : e.received <;> simp [received,h]

theorem noStray_init {es fs : List (LineEvent μ)} (first : NoStray (es ++ fs)) : NoStray es := by
  intro m head
  exact first m (by simp [head])

/-- One step keeps the explanation, as long as the first event is no stray message. -/
theorem explains_step (room : 0 < cap) {es : List (LineEvent μ)} {l l' : Line μ} {e : LineEvent μ} (inv : Explains cap es l)
    (first : NoStray (es ++ [e])) (step : LineStep cap keep l e l') : Explains cap (es ++ [e]) l' := by
  cases l with
  | spoiled => exact absurd inv id
  | unused =>
    cases inv
    cases step with
    | first m => exact ⟨rfl,room,by simp⟩
    | stray m => exact absurd rfl (first m)
  | waiting ms =>
    obtain ⟨split,few,_⟩ := inv
    rw [Explains.eq_def]
    cases step with
    | post _ m less =>
      rw [posted_snoc,received_snoc,split]
      refine ⟨by simp [LineEvent.posted,LineEvent.received],?_,by simp⟩
      rw [List.length_append,List.length_singleton]
      omega
    | full | held =>
      rw [posted_snoc,received_snoc,split]
      exact ⟨by simp [LineEvent.posted,LineEvent.received],few,by simp⟩
    | receive m ms =>
      rw [posted_snoc,received_snoc,split]
      rw [List.length_cons] at few
      exact ⟨by simp [LineEvent.posted,LineEvent.received],by omega,by simp⟩

/-- A line is a bounded queue in every run without a stray message. -/
theorem line_run (room : 0 < cap) {es : List (LineEvent μ)} {l : Line μ} (run : Run (LineStep cap keep) .unused es l)
    (first : NoStray es) : Explains cap es l := by
  refine run.invariant (I := fun es l => NoStray es → Explains cap es l) ?_ ?_ first
  · exact fun _ => show Explains cap [] .unused from rfl
  · intro es t e u _ inv step first
    exact explains_step room (inv (noStray_init first)) first step

/-! ### All lines -/

structure Boxes (n : Nat) (κ μ : Type) where
  slots : SlotMap n κ
  line : Nat → Line μ

/-- No slot in use. -/
def empty : Boxes n κ μ := ⟨SlotMap.empty,fun _ => .unused⟩

inductive MailEvent (κ μ : Type)
  | assign (i : Nat) (k : κ)
  | duplicate (k : κ)
  | noSlot (k : κ)
  | release (i : Nat)
  | kept (i : Nat)
  | absent (i : Nat)
  | lookup (k : κ) (found : Option Nat)
  | line (i : Nat) (e : LineEvent μ)

inductive MailStep [DecidableEq κ] (cap keep : Nat) : Boxes n κ μ → MailEvent κ μ → Boxes n κ μ → Prop
  | assign (B : Boxes n κ μ) (i : Nat) (k : κ) (inside : i < n) (fresh : ∀ j, B.slots.keyAt j ≠ some k) :
      B.slots.leastFree = some i →
      MailStep cap keep B (.assign i k) ⟨B.slots.assign i k inside fresh,Function.update B.line i .unused⟩
  | duplicate (B : Boxes n κ μ) (k : κ) (i : Nat) : B.slots.lookup k = some i → MailStep cap keep B (.duplicate k) B
  | noSlot (B : Boxes n κ μ) (k : κ) :
      B.slots.lookup k = none → B.slots.leastFree = none → MailStep cap keep B (.noSlot k) B
  | release (B : Boxes n κ μ) (i : Nat) (k : κ) :
      B.slots.keyAt i = some k → MailStep cap keep B (.release i) { B with slots := B.slots.release i }
  | kept (B : Boxes n κ μ) (i : Nat) (k : κ) : B.slots.keyAt i = some k → MailStep cap keep B (.kept i) B
  | absent (B : Boxes n κ μ) (i : Nat) : B.slots.keyAt i = none → MailStep cap keep B (.absent i) B
  | lookup (B : Boxes n κ μ) (k : κ) : MailStep cap keep B (.lookup k (B.slots.lookup k)) B
  | line (B : Boxes n κ μ) (i : Nat) (k : κ) (e : LineEvent μ) (l : Line μ) :
      B.slots.keyAt i = some k → LineStep cap keep (B.line i) e l →
      MailStep cap keep B (.line i e) { B with line := Function.update B.line i l }

end IpcMsq.Mailboxes
