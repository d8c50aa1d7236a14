import Mathlib.Tactic.Common

/-!
Call chains over a shared value that a spinlock guards. The lock is not recursive:
an acquire while the lock is held never ends, and such a chain has no result. The
lemmas run a chain one operation at a time.
-/
namespace IpcMsq.Spinlock

variable {σ α : Type}

/-- A call chain on the shared value and on whether the lock is held. -/
abbrev Spin (σ : Type) := StateT (σ × Bool) Option

def spin_lock : Spin σ Unit := fun (s,held) => if held then none else some ((),(s,true))

def spin_unlock : Spin σ Unit := fun (s,_) => some ((),(s,false))

def shared : Spin σ σ := fun (s,held) => some (s,(s,held))

def store (s : σ) : Spin σ Unit := fun (_,held) => some ((),(s,held))

section
variable (s s' : σ) (held : Bool)

@[simp] theorem spin_lock_free : (spin_lock : Spin σ Unit).run (s,false) = some ((),(s,true)) := rfl

@[simp] theorem spin_lock_held : (spin_lock : Spin σ Unit).run (s,true) = none := rfl

@[simp] theorem spin_unlock_run : (spin_unlock : Spin σ Unit).run (s,held) = some ((),(s,false)) := rfl

@[simp] theorem shared_run : (shared : Spin σ σ).run (s,held) = some (s,(s,held)) := rfl

@[simp] theorem store_run : (store s' : Spin σ Unit).run (s,held) = some ((),(s',held)) := rfl

@[simp] theorem pure_run (a : α) : (pure a : Spin σ α).run (s,held) = some (a,(s,held)) := rfl

end

section
variable {β : Type} {m : Spin σ α} {f : α → Spin σ β} {t t' : σ × Bool}

/-- A chain goes on from where its first part ends. -/
theorem bind_run {a : α} (first : m.run t = some (a,t')) : (m >>= f).run t = (f a).run t' := by
  rw [StateT.run_bind,first]
  rfl

/-- A chain whose first part never ends does not end either. -/
theorem bind_stuck (first : m.run t = none) : (m >>= f).run t = none := by
  rw [StateT.run_bind,first]
  rfl

end

end IpcMsq.Spinlock
