import Mathlib.Data.List.Basic

/-!
# Runs of a labelled machine

A machine is a partial step function: at a state it accepts a label or refuses it. All the
nondeterminism of the modelled system is in the labels, so a run is a list of labels and can be
computed. An invariant of every reachable state is proved by one step; a law of a run whose
steps meet a guard is proved by one step under that guard.

## Main definitions

* `Machine`: an initial state and a partial step function
* `Machine.run`: the state after a list of labels
* `Machine.Reachable`: the states of the runs from the initial state
* `Machine.EachStep R`: every step of a run meets `R`

## Main results

* `Machine.Reachable.invariant`: the invariant rule
* `Machine.exists_turn`: the step in which something comes to hold
* `Machine.EachStep.invariant`: the invariant rule for runs whose steps meet a guard
* `Machine.eachStep_iff_of_scope`: a law that is equivalent to a guard at every step, as long as
  the guard held before, holds along a run exactly when the guard does
* `Machine.run_simulation`: a step-by-step simulation simulates runs
-/

universe u v

/-- A machine with states `σ` and labels `α`. -/
structure Machine (σ : Type u) (α : Type v) where
  /-- The state every run starts from. -/
  init : σ
  /-- The state after a label, where the label is accepted. -/
  step : σ → α → Option σ

namespace Machine

variable {σ : Type u} {α : Type v} (M : Machine σ α)

/-- The state after the labels `l`, where all of them are accepted. -/
def run : σ → List α → Option σ
  | s, [] => some s
  | s, a :: l => (M.step s a).bind fun t => run t l

@[simp] theorem run_nil (s : σ) : M.run s [] = some s := rfl

theorem run_cons (s : σ) (a : α) (l : List α) :
    M.run s (a :: l) = (M.step s a).bind fun t => M.run t l := rfl

theorem run_cons_eq_some {s u : σ} {a : α} {l : List α} :
    M.run s (a :: l) = some u ↔ ∃ t, M.step s a = some t ∧ M.run t l = some u := by
  simp [run_cons, Option.bind_eq_some_iff]

theorem run_append (s : σ) (k l : List α) :
    M.run s (k ++ l) = (M.run s k).bind fun t => M.run t l := by
  induction k generalizing s with
  | nil => rfl
  | cons a k ih =>
    rw [List.cons_append, run_cons, run_cons, Option.bind_assoc]
    exact congrArg _ (funext ih)

/-- The states of the runs from the initial state. -/
def Reachable (s : σ) : Prop := ∃ l, M.run M.init l = some s

variable {M}

theorem Reachable.run {s t : σ} (h : M.Reachable s) {l : List α} (hl : M.run s l = some t) :
    M.Reachable t := by
  obtain ⟨k, hk⟩ := h
  exact ⟨k ++ l, by rw [run_append, hk, Option.bind_some, hl]⟩

theorem Reachable.step {s t : σ} (h : M.Reachable s) {a : α} (ht : M.step s a = some t) :
    M.Reachable t :=
  h.run (l := [a]) (by rw [run_cons, ht]; rfl)

/-- What every step preserves, every run preserves. -/
theorem run_invariant {I : σ → Prop} (hstep : ∀ s a t, I s → M.step s a = some t → I t)
    {s t : σ} {l : List α} (hl : M.run s l = some t) (hs : I s) : I t := by
  induction l generalizing s with
  | nil => obtain rfl := Option.some.inj hl; exact hs
  | cons a l ih =>
    obtain ⟨u, hu, hl⟩ := (run_cons_eq_some M).mp hl
    exact ih hl (hstep s a u hs hu)

/-- **The invariant rule**: what holds at the start and is preserved by every step holds of
every reachable state. -/
theorem Reachable.invariant {I : σ → Prop} (hinit : I M.init)
    (hstep : ∀ s a t, I s → M.step s a = some t → I t) {s : σ} (h : M.Reachable s) : I s := by
  obtain ⟨l, hl⟩ := h
  exact run_invariant hstep hl hinit

/-- **The turning point**: what does not hold at the start of a run and holds at its end comes to
hold in one of its steps. -/
theorem exists_turn {P : σ → Prop} {s t : σ} {l : List α} (hl : M.run s l = some t) (hs : ¬ P s)
    (ht : P t) : ∃ k a r u v, l = k ++ a :: r ∧ M.run s k = some u ∧ M.step u a = some v ∧
      M.run v r = some t ∧ ¬ P u ∧ P v := by
  induction l generalizing s with
  | nil =>
    obtain rfl := Option.some.inj hl
    exact absurd ht hs
  | cons a l ih =>
    obtain ⟨v, hv, hl⟩ := (run_cons_eq_some M).mp hl
    by_cases hP : P v
    · exact ⟨[], a, l, s, v, rfl, rfl, hv, hl, hs, hP⟩
    · obtain ⟨k, b, r, u, w, rfl, hu, hw, hr, hPu, hPw⟩ := ih hl hP
      exact ⟨a :: k, b, r, u, w, rfl, (run_cons_eq_some M).mpr ⟨v, hv, hu⟩, hw, hr, hPu, hPw⟩

/-! ## Laws of the steps of a run -/

variable (M)

/-- Every step of the run of `l` from `s` meets `R`, as far as the labels are accepted. -/
def EachStep (R : σ → α → σ → Prop) : σ → List α → Prop
  | _, [] => True
  | s, a :: l => ∀ t, M.step s a = some t → R s a t ∧ EachStep R t l

variable {M} {R : σ → α → σ → Prop} {G : σ → α → Prop} {J : σ → Prop}

@[simp] theorem eachStep_nil (s : σ) : M.EachStep R s [] := trivial

theorem eachStep_cons {s : σ} {a : α} {l : List α} :
    M.EachStep R s (a :: l) ↔ ∀ t, M.step s a = some t → R s a t ∧ M.EachStep R t l := Iff.rfl

theorem eachStep_cons_some {s t : σ} {a : α} {l : List α} (ht : M.step s a = some t) :
    M.EachStep R s (a :: l) ↔ R s a t ∧ M.EachStep R t l := by
  rw [eachStep_cons]
  constructor
  · exact fun h => h t ht
  · intro h u hu
    obtain rfl := Option.some.inj (ht.symm.trans hu)
    exact h

theorem eachStep_cons_none {s : σ} {a : α} {l : List α} (hs : M.step s a = none) :
    M.EachStep R s (a :: l) := by
  intro t ht
  rw [hs] at ht
  cases ht

/-- On a given run a law of steps can be evaluated. -/
instance decidableEachStep [∀ s a t, Decidable (R s a t)] :
    ∀ (s : σ) (l : List α), Decidable (M.EachStep R s l)
  | _, [] => isTrue trivial
  | s, a :: l =>
    match hs : M.step s a with
    | none => isTrue (eachStep_cons_none hs)
    | some t =>
      have := decidableEachStep t l
      decidable_of_iff _ (eachStep_cons_some hs).symm

theorem eachStep_append {s t : σ} {k l : List α} (hk : M.run s k = some t) :
    M.EachStep R s (k ++ l) ↔ M.EachStep R s k ∧ M.EachStep R t l := by
  induction k generalizing s with
  | nil => obtain rfl := Option.some.inj hk; simp
  | cons a k ih =>
    obtain ⟨u, hu, hk⟩ := (run_cons_eq_some M).mp hk
    simp [eachStep_cons, hu, ih hk, and_assoc]

/-- A law of every step is a law of every run. -/
theorem eachStep_of_forall (hR : ∀ s a t, R s a t) (s : σ) (l : List α) : M.EachStep R s l := by
  induction l generalizing s with
  | nil => trivial
  | cons a l ih => exact fun t _ => ⟨hR s a t, ih t⟩

/-- The law of the last step of a run. -/
theorem EachStep.last {s t u : σ} {k : List α} {a : α} (h : M.EachStep R s (k ++ [a]))
    (hk : M.run s k = some t) (ha : M.step t a = some u) : R t a u :=
  (((eachStep_append hk).mp h).2 u ha).1

/-- A law of the steps of a run, with what is known of its labels. -/
theorem EachStep.restrict {A : α → Prop} {s : σ} {l : List α} (h : M.EachStep R s l)
    (hl : ∀ a ∈ l, A a) : M.EachStep (fun s a t => A a ∧ R s a t) s l := by
  induction l generalizing s with
  | nil => trivial
  | cons a l ih =>
    obtain ⟨ha, hl⟩ := List.forall_mem_cons.mp hl
    exact fun t ht => ⟨⟨ha, (h t ht).1⟩, ih (h t ht).2 hl⟩

theorem EachStep.mono {R' : σ → α → σ → Prop} (hR : ∀ s a t, R s a t → R' s a t) {s : σ}
    {l : List α} (h : M.EachStep R s l) : M.EachStep R' s l := by
  induction l generalizing s with
  | nil => trivial
  | cons a l ih => exact fun t ht => ⟨hR s a t (h t ht).1, ih (h t ht).2⟩

/-- Two laws of the steps of a run. -/
theorem EachStep.and {R' : σ → α → σ → Prop} {s : σ} {l : List α} (h : M.EachStep R s l)
    (h' : M.EachStep R' s l) : M.EachStep (fun s a t => R s a t ∧ R' s a t) s l := by
  induction l generalizing s with
  | nil => trivial
  | cons a l ih => exact fun t ht => ⟨⟨(h t ht).1, (h' t ht).1⟩, ih (h t ht).2 (h' t ht).2⟩

/-- **The invariant rule under a guard**: what the steps that meet `G` preserve, the runs whose
steps all meet `G` preserve. -/
theorem EachStep.invariant (hstep : ∀ s a t, J s → G s a → M.step s a = some t → J t) {s t : σ}
    {l : List α} (h : M.EachStep (fun s a _ => G s a) s l) (hl : M.run s l = some t) (hs : J s) :
    J t := by
  induction l generalizing s with
  | nil => obtain rfl := Option.some.inj hl; exact hs
  | cons a l ih =>
    obtain ⟨u, hu, hl⟩ := (run_cons_eq_some M).mp hl
    exact ih (h u hu).2 hl (hstep s a u hs (h u hu).1 hu)

/-- A law of the guarded steps from the states of `J` is a law of the guarded runs. -/
theorem EachStep.law (hstep : ∀ s a t, J s → G s a → M.step s a = some t → J t ∧ R s a t) {s : σ}
    {l : List α} (h : M.EachStep (fun s a _ => G s a) s l) (hs : J s) : M.EachStep R s l := by
  induction l generalizing s with
  | nil => trivial
  | cons a l ih =>
    intro t ht
    obtain ⟨hJ, hR⟩ := hstep s a t hs (h t ht).1 ht
    exact ⟨hR, ih (h t ht).2 hJ⟩

/-- **A law and its exact guard.** Where, from the states of `J` and within the scope `A`, a step
meets `R` exactly when it meets the guard `G`, and the guarded steps stay in `J`, a run within the
scope meets `R` at every step exactly when it meets `G` at every step. -/
theorem eachStep_iff_of_scope {A : σ → α → Prop}
    (hiff : ∀ s a t, J s → A s a → M.step s a = some t → (R s a t ↔ G s a))
    (hstep : ∀ s a t, J s → A s a → G s a → M.step s a = some t → J t) {s : σ} (hs : J s)
    {l : List α} (hl : M.EachStep (fun s a _ => A s a) s l) :
    M.EachStep R s l ↔ M.EachStep (fun s a _ => G s a) s l := by
  induction l generalizing s with
  | nil => exact Iff.rfl
  | cons a l ih =>
    rw [eachStep_cons, eachStep_cons]
    refine forall₂_congr fun t ht => ?_
    obtain ⟨hA, hl⟩ := hl t ht
    have hguard := hiff s a t hs hA ht
    constructor
    · rintro ⟨hR, h⟩
      have hG := hguard.mp hR
      exact ⟨hG, (ih (hstep s a t hs hA hG ht) hl).mp h⟩
    · rintro ⟨hG, h⟩
      exact ⟨hguard.mpr hG, (ih (hstep s a t hs hA hG ht) hl).mpr h⟩

theorem eachStep_iff (hiff : ∀ s a t, J s → M.step s a = some t → (R s a t ↔ G s a))
    (hstep : ∀ s a t, J s → G s a → M.step s a = some t → J t) {s : σ} (hs : J s) (l : List α) :
    M.EachStep R s l ↔ M.EachStep (fun s a _ => G s a) s l := by
  exact eachStep_iff_of_scope (A := fun _ _ => True) (fun s a t hJ _ => hiff s a t hJ)
    (fun s a t hJ _ => hstep s a t hJ) hs (eachStep_of_forall (fun _ _ _ => trivial) s l)

/-! ## Simulation -/

section Simulation

variable {τ β : Type*} {N : Machine τ β} {S : σ → τ → Prop} {f : α → List β}

/-- **Simulation**: where every step of `M` is matched by the steps `f` names in `N`, so is every
run. -/
theorem run_simulation
    (hstep : ∀ s a t p, S s p → M.step s a = some t → ∃ q, N.run p (f a) = some q ∧ S t q)
    {s t : σ} {p : τ} {l : List α} (hp : S s p) (hl : M.run s l = some t) :
    ∃ q, N.run p (l.flatMap f) = some q ∧ S t q := by
  induction l generalizing s p with
  | nil => obtain rfl := Option.some.inj hl; exact ⟨p, rfl, hp⟩
  | cons a l ih =>
    obtain ⟨u, hu, hl⟩ := (run_cons_eq_some M).mp hl
    obtain ⟨q, hq, hSq⟩ := hstep s a u p hp hu
    obtain ⟨r, hr, hSr⟩ := ih hSq hl
    exact ⟨r, by rw [List.flatMap_cons, run_append, hq, Option.bind_some, hr], hSr⟩

end Simulation

end Machine
