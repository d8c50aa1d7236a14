import Mathlib.Tactic.Common
import Mathlib.Data.Nat.ModEq

/-!
The window of a circular buffer: the slots from an output position on, in
reading order. A write at the end of the window appends to it and a read at its
front drops the head, as long as the capacity is not exceeded.
-/
namespace IpcMsq.Ring

variable {α : Type}

/-- The contents of the `n` slots from position `out` on, wrapping at `cap`. -/
def window (slot : Nat → α) (cap out n : Nat) : List α := (List.range n).map fun k => slot ((out + k) % cap)

theorem window_length (slot : Nat → α) (cap out n : Nat) : (window slot cap out n).length = n := by simp [window]

/-- Two places less than a whole turn apart are different slots. -/
theorem place_ne {cap out j k : Nat} (less : j < k) (near : k < j + cap) : (out + j) % cap ≠ (out + k) % cap := by
  intro same
  have turns : j ≡ k [MOD cap] := Nat.ModEq.add_left_cancel' out same
  have whole := Nat.le_of_dvd (by omega) ((Nat.modEq_iff_dvd' less.le).mp turns)
  omega

theorem window_congr {slot slot' : Nat → α} {cap out n : Nat}
    (same : ∀ k < n, slot' ((out + k) % cap) = slot ((out + k) % cap)) :
    window slot' cap out n = window slot cap out n :=
  List.map_congr_left fun k inside => same k (List.mem_range.mp inside)

/-- Filling the slot behind the window, and no slot of it, appends that slot's new contents. -/
theorem window_push (slot slot' : Nat → α) {cap out n : Nat}
    (keep : ∀ k < n, slot' ((out + k) % cap) = slot ((out + k) % cap)) :
    window slot' cap out (n + 1) = window slot cap out n ++ [slot' ((out + n) % cap)] := by
  rw [← window_congr keep]
  simp [window,List.range_succ]

/-- The window from the next position on is the tail of the window. -/
theorem window_pop (slot : Nat → α) (cap out n : Nat) :
    window slot cap out (n + 1) = slot (out % cap) :: window slot cap (out + 1) n := by
  simp only [window,List.range_succ_eq_map,List.map_cons,List.map_map,Nat.add_zero,List.cons.injEq,true_and]
  apply List.map_congr_left
  intro k _
  rw [Function.comp,Nat.succ_eq_one_add,← Nat.add_assoc]

end IpcMsq.Ring
