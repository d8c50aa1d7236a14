import Mathlib.Tactic.Common
import Mathlib.Logic.Function.Basic

/-!
Injective partial maps from the slots below `n` to keys: the meaning of a fixed
table whose entries are looked up by key, handed out at the first free slot and
released by slot number.
-/
namespace IpcMsq

/-- The key of each occupied slot. No key occupies two slots. -/
structure SlotMap (n : Nat) (κ : Type) where
  keyAt : Nat → Option κ
  bounded : ∀ i k, keyAt i = some k → i < n
  injective : ∀ i j k, keyAt i = some k → keyAt j = some k → i = j

variable {n : Nat} {κ : Type}

namespace SlotMap

def empty : SlotMap n κ where
  keyAt _ := none
  bounded _ _ found := by cases found
  injective _ _ _ found := by cases found

/-- The slot of a key. -/
def lookup [DecidableEq κ] (T : SlotMap n κ) (k : κ) : Option Nat :=
  (List.range n).find? fun i => T.keyAt i = some k

/-- The first slot without a key. -/
def leastFree (T : SlotMap n κ) : Option Nat := (List.range n).find? fun i => (T.keyAt i).isNone

/-- Give a free slot to a key that has none. -/
def assign (T : SlotMap n κ) (i : Nat) (k : κ) (inside : i < n) (fresh : ∀ j, T.keyAt j ≠ some k) :
    SlotMap n κ where
  keyAt := Function.update T.keyAt i (some k)
  bounded j k' found := by
    by_cases same : j = i
    · exact same ▸ inside
    · rw [Function.update_of_ne same] at found
      exact T.bounded j k' found
  injective j l k' first second := by
    by_cases left : j = i <;> by_cases right : l = i
    · rw [left,right]
    · subst left
      rw [Function.update_self] at first
      rw [Function.update_of_ne right,← first] at second
      exact absurd second (fresh l)
    · subst right
      rw [Function.update_self] at second
      rw [Function.update_of_ne left,← second] at first
      exact absurd first (fresh j)
    · rw [Function.update_of_ne left] at first
      rw [Function.update_of_ne right] at second
      exact T.injective j l k' first second

/-- Free a slot. -/
def release (T : SlotMap n κ) (i : Nat) : SlotMap n κ where
  keyAt := Function.update T.keyAt i none
  bounded j k found := by
    by_cases same : j = i
    · rw [same,Function.update_self] at found; cases found
    · rw [Function.update_of_ne same] at found
      exact T.bounded j k found
  injective j l k first second := by
    by_cases left : j = i
    · rw [left,Function.update_self] at first; cases first
    · by_cases right : l = i
      · rw [right,Function.update_self] at second; cases second
      · rw [Function.update_of_ne left] at first
        rw [Function.update_of_ne right] at second
        exact T.injective j l k first second

theorem ext {T T' : SlotMap n κ} (same : ∀ i, T.keyAt i = T'.keyAt i) : T = T' := by
  cases T; cases T'
  have := funext same
  subst this
  rfl

/-- A lookup inverts the map. -/
theorem lookup_some [DecidableEq κ] {T : SlotMap n κ} {k : κ} {i : Nat} :
    T.lookup k = some i ↔ T.keyAt i = some k := by
  simp only [lookup,List.find?_range_eq_some,List.mem_range,decide_eq_true_eq]
  constructor
  · exact fun found => found.1
  · intro found
    refine ⟨found,T.bounded i k found,fun j less => ?_⟩
    have other : T.keyAt j ≠ some k := fun also => absurd (T.injective j i k also found) (by omega)
    simpa using other

theorem lookup_none [DecidableEq κ] {T : SlotMap n κ} {k : κ} :
    T.lookup k = none ↔ ∀ i, T.keyAt i ≠ some k := by
  constructor
  · intro none i found
    rw [lookup_some.mpr found] at none
    cases none
  · intro fresh
    cases found : T.lookup k with
    | none => rfl
    | some i => exact absurd (lookup_some.mp found) (fresh i)

theorem leastFree_some {T : SlotMap n κ} {i : Nat} :
    T.leastFree = some i ↔ i < n ∧ T.keyAt i = none ∧ ∀ j < i, T.keyAt j ≠ none := by
  simp only [leastFree,List.find?_range_eq_some,List.mem_range,Option.isNone_iff_eq_none]
  simp only [Bool.not_eq_true',Option.isNone_eq_false_iff,Option.isSome_iff_ne_none]
  tauto

theorem leastFree_none {T : SlotMap n κ} : T.leastFree = none ↔ ∀ i < n, T.keyAt i ≠ none := by
  simp [leastFree]

@[simp] theorem keyAt_assign {T : SlotMap n κ} {i : Nat} {k : κ} {inside : i < n}
    {fresh : ∀ j, T.keyAt j ≠ some k} (j : Nat) :
    (T.assign i k inside fresh).keyAt j = if j = i then some k else T.keyAt j := Function.update_apply ..

@[simp] theorem keyAt_release {T : SlotMap n κ} {i : Nat} (j : Nat) :
    (T.release i).keyAt j = if j = i then none else T.keyAt j := Function.update_apply ..

@[simp] theorem keyAt_empty (i : Nat) : (empty : SlotMap n κ).keyAt i = none := rfl

end SlotMap
end IpcMsq
