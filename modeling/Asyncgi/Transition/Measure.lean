import Mathlib.Algebra.Order.Ring.Nat
import Asyncgi.Transition.Run

/-!
# Measures along a run

A measure that every step lowers by what its label spends, and raises by what its label puts in, at
most, bounds what a whole run spends.

## Main results

* `Machine.run_measure`: what a run spends is covered by the measure at its start and by what it
  puts in
* `Machine.sum_map_ite`: where only the labels of one kind spend, this is a bound on their number
-/

universe u v

namespace Machine

variable {σ : Type u} {α : Type v} {M : Machine σ α}

/-- What the labels of one kind spend, or put in. -/
theorem sum_map_ite (p : α → Bool) (m : Nat) (l : List α) :
    (l.map fun a => if p a then m else 0).sum = m * l.countP p := by
  induction l with
  | nil => rfl
  | cons a l ih =>
    rw [List.map_cons, List.sum_cons, ih, List.countP_cons, Nat.mul_add, Nat.add_comm]
    split <;> simp

variable {I : σ → Prop} {A : α → Prop} {μ : σ → Nat} (spent gain : α → Nat)

/-- **A measure pays for the steps of a run**: what the labels of a run spend is covered by the
measure at its start and by what they put in. -/
theorem run_measure (hstep : ∀ s a t, A a → I s → M.step s a = some t →
      I t ∧ μ t + spent a ≤ μ s + gain a) {s t : σ} {l : List α} (hA : ∀ a ∈ l, A a) (hs : I s)
    (hl : M.run s l = some t) : I t ∧ μ t + (l.map spent).sum ≤ μ s + (l.map gain).sum := by
  induction l generalizing s with
  | nil =>
    obtain rfl := Option.some.inj hl
    exact ⟨hs, Nat.le_refl _⟩
  | cons a l ih =>
    obtain ⟨u, hu, hl⟩ := (run_cons_eq_some M).mp hl
    obtain ⟨ha, hA⟩ := List.forall_mem_cons.mp hA
    obtain ⟨hIu, hle⟩ := hstep s a u ha hs hu
    obtain ⟨hIt, hrest⟩ := ih hA hIu hl
    refine ⟨hIt, ?_⟩
    rw [List.map_cons, List.sum_cons, List.map_cons, List.sum_cons]
    omega

end Machine
