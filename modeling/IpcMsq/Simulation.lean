import IpcMsq.Runs

/-!
Forward simulation between labelled step relations. What is seen of a label is a list, so
a step may be matched by several steps or by none, as long as the same is seen of both; a
run is then matched by a run of which the same is seen. Where the labels of the one system
have a meaning in labels of the other, that meaning is what is seen.
-/
namespace IpcMsq.Simulation
open IpcMsq.Runs

variable {σ τ ε φ ο : Type}

/-- Every step is matched, from each related state, by a run of which the same is seen,
    to a related state. -/
def Matches (R : σ → τ → Prop) (seen : ε → List ο) (seen' : φ → List ο) (step : σ → ε → σ → Prop)
    (step' : τ → φ → τ → Prop) : Prop :=
  ∀ s t e s', R s t → step s e s' → ∃ fs t', Run step' t fs t' ∧ fs.flatMap seen' = seen e ∧ R s' t'

/-- Every step is matched, from each related state, by a run of what its label means
    to a related state. -/
def Simulates (R : σ → τ → Prop) (meaning : ε → List φ) (step : σ → ε → σ → Prop) (step' : τ → φ → τ → Prop) : Prop :=
  ∀ s t e s', R s t → step s e s' → ∃ t', Run step' t (meaning e) t' ∧ R s' t'

variable {R : σ → τ → Prop} {step : σ → ε → σ → Prop} {step' : τ → φ → τ → Prop} {s s' : σ} {t : τ} {es : List ε}

/-- Steps that are matched make runs that are matched. -/
theorem Matches.run {seen : ε → List ο} {seen' : φ → List ο} (sim : Matches R seen seen' step step') (related : R s t)
    (run : Run step s es s') : ∃ fs t', Run step' t fs t' ∧ fs.flatMap seen' = es.flatMap seen ∧ R s' t' := by
  induction run with
  | nil => exact ⟨[],t,.nil,rfl,related⟩
  | snoc _ last ih =>
    obtain ⟨fs,u,before,same,related'⟩ := ih
    obtain ⟨gs,t',matched,same',after⟩ := sim _ _ _ _ related' last
    refine ⟨fs ++ gs,t',before.append matched,?_,after⟩
    rw [List.flatMap_append,List.flatMap_append,List.flatMap_singleton,same,same']

/-- A simulation of the steps is one of the runs. -/
theorem Simulates.run {meaning : ε → List φ} (sim : Simulates R meaning step step') (related : R s t) (run : Run step s es s') :
    ∃ t', Run step' t (es.flatMap meaning) t' ∧ R s' t' := by
  have alike : Matches R meaning (fun f => [f]) step step' := by
    intro s t e s' related last
    obtain ⟨t',matched,after⟩ := sim s t e s' related last
    exact ⟨meaning e,t',matched,List.flatMap_singleton' _,after⟩
  obtain ⟨fs,t',matched,same,after⟩ := alike.run related run
  rw [List.flatMap_singleton'] at same
  exact ⟨t',same ▸ matched,after⟩

end IpcMsq.Simulation
