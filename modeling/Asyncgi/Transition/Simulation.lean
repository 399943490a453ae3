import Asyncgi.Transition.Run
import Mathlib.Data.List.Forall2

/-!
# Simulations whose matching steps depend on the state

`Machine.run_simulation` asks for the matching steps to be a function of the label. Where one move
of the concrete machine stands for different moves of the abstract one, depending on the state it is
made in, they are related to the label instead; and the steps may be matched under a guard only.

## Main definitions

* `Machine.Matches`: the steps of a machine are matched by those of another one

## Main results

* `Machine.Matches.run`: a run is matched by a run, label by label
* `Machine.Matches.reachable`: the state a run leads to is matched by a reachable state
-/

namespace Machine

variable {σ α τ β : Type*} {M : Machine σ α} {N : Machine τ β} {S : σ → τ → Prop}
  {W : α → List β → Prop} {G : σ → α → Prop}

/-- Every step of `M` that meets `G` is matched, along `S`, by steps of `N` that are related to its
label. -/
def Matches (M : Machine σ α) (N : Machine τ β) (S : σ → τ → Prop) (W : α → List β → Prop)
    (G : σ → α → Prop) : Prop :=
  ∀ s a t p, S s p → G s a → M.step s a = some t → ∃ k q, W a k ∧ N.run p k = some q ∧ S t q

namespace Matches

variable {s t : σ} {p : τ} {l : List α}

/-- Where the steps are matched, so are the runs. -/
theorem run (h : Matches M N S W G) (hp : S s p) (hG : M.EachStep (fun s a _ => G s a) s l)
    (hl : M.run s l = some t) :
    ∃ ks q, List.Forall₂ W l ks ∧ N.run p ks.flatten = some q ∧ S t q := by
  induction l generalizing s p with
  | nil =>
    obtain rfl := Option.some.inj hl
    exact ⟨[], p, .nil, rfl, hp⟩
  | cons a l ih =>
    obtain ⟨u, hu, hl⟩ := (run_cons_eq_some M).mp hl
    obtain ⟨hGa, hG⟩ := hG u hu
    obtain ⟨k, q, hk, hq, hSq⟩ := h s a u p hp hGa hu
    obtain ⟨ks, r, hks, hr, hSr⟩ := ih hSq hG hl
    refine ⟨k :: ks, r, .cons hk hks, ?_, hSr⟩
    rw [List.flatten_cons, run_append, hq, Option.bind_some, hr]

/-- **A run leads to a state that is matched by a reachable one.** -/
theorem reachable (h : Matches M N S W G) (hinit : S M.init N.init)
    (hG : M.EachStep (fun s a _ => G s a) M.init l) (hl : M.run M.init l = some t) :
    ∃ q, N.Reachable q ∧ S t q := by
  obtain ⟨ks, q, -, hq, hS⟩ := h.run hinit hG hl
  exact ⟨q, ⟨ks.flatten, hq⟩, hS⟩

end Matches

end Machine
