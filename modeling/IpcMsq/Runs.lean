import Mathlib.Tactic.Common
import Mathlib.Data.List.Induction

/-!
Runs of a labelled step relation. A run lists the events of its steps in order,
so a statement about a run may speak of everything that happened in it; an
invariant relates the events so far to the state they led to.
-/
namespace IpcMsq.Runs

variable {σ ε : Type} {step step' : σ → ε → σ → Prop} {s t u : σ} {es fs : List ε} {e : ε}

/-- The events of a sequence of steps from `s`, and the state it ends in. -/
inductive Run (step : σ → ε → σ → Prop) (s : σ) : List ε → σ → Prop
  | nil : Run step s [] s
  | snoc {es : List ε} {t : σ} {e : ε} {u : σ} : Run step s es t → step t e u → Run step s (es ++ [e]) u

theorem Run.one (first : step s e t) : Run step s [e] t := Run.snoc Run.nil first

theorem Run.append (run : Run step s es t) (more : Run step t fs u) : Run step s (es ++ fs) u := by
  induction more with
  | nil => simpa using run
  | snoc _ last ih => rw [← List.append_assoc]; exact ih.snoc last

/-- A run without events stays where it is. -/
theorem Run.stays (run : Run step s [] t) : t = s := by
  generalize listed : ([] : List ε) = all at run
  cases run with
  | nil => rfl
  | snoc before step => simp at listed

/-- The last step of a run. -/
theorem Run.last (run : Run step s (es ++ [e]) u) : ∃ t, Run step s es t ∧ step t e u := by
  generalize listed : es ++ [e] = all at run
  cases run with
  | nil => simp at listed
  | snoc before step =>
    obtain ⟨rfl,same⟩ := List.append_inj' listed rfl
    cases same
    exact ⟨_,before,step⟩

/-- The state between the two parts of a run. -/
theorem Run.split (run : Run step s (es ++ fs) u) : ∃ t, Run step s es t ∧ Run step t fs u := by
  induction fs using List.reverseRecOn generalizing u with
  | nil => exact ⟨u,by simpa using run,.nil⟩
  | append_singleton fs e ih =>
    rw [← List.append_assoc] at run
    obtain ⟨v,before,last⟩ := run.last
    obtain ⟨t,first,second⟩ := ih before
    exact ⟨t,first,second.snoc last⟩

/-- The first step of a run. -/
theorem Run.first (run : Run step s (e :: es) u) : ∃ t, step s e t ∧ Run step t es u := by
  obtain ⟨t,one,rest⟩ := Run.split (show Run step s ([e] ++ es) u from run)
  obtain ⟨v,none,step⟩ := Run.last (show Run step s ([] ++ [e]) t from one)
  cases none.stays
  exact ⟨t,step,rest⟩

/-- What holds of no events at the start and is kept by every step holds after every run. -/
theorem Run.invariant {I : List ε → σ → Prop} (start : I [] s)
    (keep : ∀ es t e u, Run step s es t → I es t → step t e u → I (es ++ [e]) u) (run : Run step s es t) :
    I es t := by
  induction run with
  | nil => exact start
  | snoc before last ih => exact keep _ _ _ _ before ih last

/-- The invariant rule for a property of the state alone. -/
theorem Run.preserves {I : σ → Prop} (start : I s) (keep : ∀ t e u, I t → step t e u → I u)
    (run : Run step s es t) : I t :=
  run.invariant (I := fun _ => I) start fun _ t e u _ => keep t e u

theorem Run.mono (weaker : ∀ t e u, step t e u → step' t e u) (run : Run step s es t) : Run step' s es t := by
  induction run with
  | nil => exact .nil
  | snoc _ last ih => exact ih.snoc (weaker _ _ _ last)

/-- Two step relations that have the same steps from the states of an invariant have
    the same runs. -/
theorem Run.congr {I : σ → Prop} (start : I s) (keep : ∀ t e u, I t → step t e u → I u)
    (same : ∀ t e u, I t → (step t e u ↔ step' t e u)) : Run step s es t ↔ Run step' s es t := by
  constructor
  · intro run
    have both : Run step' s es t ∧ I t := by
      induction run with
      | nil => exact ⟨.nil,start⟩
      | snoc _ last ih => exact ⟨ih.1.snoc ((same _ _ _ ih.2).mp last),keep _ _ _ ih.2 last⟩
    exact both.1
  · intro run
    have both : Run step s es t ∧ I t := by
      induction run with
      | nil => exact ⟨.nil,start⟩
      | snoc _ last ih =>
        have back := (same _ _ _ ih.2).mpr last
        exact ⟨ih.1.snoc back,keep _ _ _ ih.2 back⟩
    exact both.1

/-! ### Exact conditions -/

/-- Steps that meet a condition on the state before them. -/
def Guarded (step : σ → ε → σ → Prop) (cond : σ → ε → Prop) (t : σ) (e : ε) (u : σ) : Prop := step t e u ∧ cond t e

/-- A condition on the events alone is one on the events of the run. -/
theorem Run.guarded_events {P : ε → Prop} : Run (Guarded step fun _ => P) s es t ↔ Run step s es t ∧ ∀ e ∈ es, P e := by
  constructor
  · intro run
    induction run with
    | nil => exact ⟨.nil,by simp⟩
    | snoc _ last ih =>
      refine ⟨ih.1.snoc last.1,fun e listed => ?_⟩
      rcases List.mem_append.mp listed with before | own
      · exact ih.2 e before
      · rw [List.mem_singleton.mp own]
        exact last.2
  · rintro ⟨run,all⟩
    induction run with
    | nil => exact .nil
    | snoc _ last ih =>
      exact (ih fun e listed => all e (List.mem_append_left _ listed)).snoc ⟨last,all _ (by simp)⟩

/-- Steps into states with a property. -/
def Into (step : σ → ε → σ → Prop) (good : σ → Prop) (t : σ) (e : ε) (u : σ) : Prop := step t e u ∧ good u

/-- Where an invariant makes a condition on the next step equivalent to a
    property of the state it leads to, the runs whose steps meet the condition
    are the runs whose states have the property. -/
theorem Run.guarded_iff {I good : σ → Prop} {cond : σ → ε → Prop} (start : I s)
    (exact : ∀ t e u, I t → step t e u → (good u ↔ cond t e)) (keep : ∀ t e u, I t → step t e u → cond t e → I u) :
    Run (Into step good) s es t ↔ Run (Guarded step cond) s es t := by
  constructor
  · intro run
    have both : Run (Guarded step cond) s es t ∧ I t := by
      induction run with
      | nil => exact ⟨.nil,start⟩
      | snoc _ last ih =>
        obtain ⟨before,inv⟩ := ih
        have inOrder := (exact _ _ _ inv last.1).mp last.2
        exact ⟨before.snoc ⟨last.1,inOrder⟩,keep _ _ _ inv last.1 inOrder⟩
    exact both.1
  · intro run
    have both : Run (Into step good) s es t ∧ I t := by
      induction run with
      | nil => exact ⟨.nil,start⟩
      | snoc _ last ih =>
        obtain ⟨before,inv⟩ := ih
        exact ⟨before.snoc ⟨last.1,(exact _ _ _ inv last.1).mpr last.2⟩,keep _ _ _ inv last.1 last.2⟩
    exact both.1

/-- The same where every step meets the condition and keeps the invariant, or
    neither meets it nor leads to the property; the invariant then holds after
    every run in order. -/
theorem Run.guarded_iff_of_exact {I good : σ → Prop} {cond : σ → ε → Prop} (start : I s) (implies : ∀ t, I t → good t)
    (exact : ∀ t e u, I t → step t e u → cond t e ∧ I u ∨ ¬ cond t e ∧ ¬ good u) :
    (Run (Into step good) s es t ↔ Run (Guarded step cond) s es t) ∧ (Run (Guarded step cond) s es t → I t) := by
  have keep (t : σ) (e : ε) (u : σ) (inv : I t) (next : step t e u) (order : cond t e) : I u := by
    rcases exact t e u inv next with ⟨_,after⟩ | ⟨out,_⟩
    · exact after
    · exact absurd order out
  refine ⟨Run.guarded_iff start (fun t e u inv next => ?_) keep,fun run => ?_⟩
  · rcases exact t e u inv next with ⟨order,after⟩ | ⟨out,bad⟩
    · exact iff_of_true (implies u after) order
    · exact iff_of_false bad out
  · exact run.preserves start fun t e u inv next => keep t e u inv next.1 next.2

/-- A run into states with a property ends in one. -/
theorem Run.into {good : σ → Prop} (start : good s) (run : Run (Into step good) s es t) : good t :=
  run.preserves start fun _ _ _ _ next => next.2

end IpcMsq.Runs
