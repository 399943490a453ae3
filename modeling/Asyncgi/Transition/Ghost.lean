import Asyncgi.Transition.Run

/-!
# Runs with a ghost

A ghost is state that a machine does not have but that its steps determine, such as the last
command it was given. It is kept beside the machine's own state: it neither enables nor disables a
step, and what is proved of the machine with its ghost is a fact about the machine's runs.

## Main definitions

* `Machine.withGhost`: the machine beside a ghost that follows its steps
* `Machine.collect`: what the steps of a run give

## Main results

* `Machine.withGhost_run`: the runs of the machine are those of the machine with its ghost
* `Machine.EachStep.collect`: the invariant rule with what the steps have given
-/

universe u v w

namespace Machine

variable {σ : Type u} {α : Type v} {γ : Type w} (M : Machine σ α) (f : σ → α → γ → γ) (g₀ : γ)

/-- The machine with a ghost that starts as `g₀` and follows every step by `f`. -/
def withGhost : Machine (σ × γ) α where
  init := (M.init, g₀)
  step p a := (M.step p.1 a).map fun t => (t, f p.1 a p.2)

variable {M f g₀}

theorem withGhost_step_eq_some {p q : σ × γ} {a : α} :
    (M.withGhost f g₀).step p a = some q ↔ M.step p.1 a = some q.1 ∧ q.2 = f p.1 a p.2 := by
  obtain ⟨s, g⟩ := p
  obtain ⟨t, g'⟩ := q
  simp only [withGhost, Option.map_eq_some_iff, Prod.mk.injEq]
  constructor
  · rintro ⟨u, hu, rfl, rfl⟩
    exact ⟨hu, rfl⟩
  · rintro ⟨hu, rfl⟩
    exact ⟨t, hu, rfl, rfl⟩

/-- A run of the machine with its ghost is a run of the machine. -/
theorem run_of_withGhost {p q : σ × γ} {l : List α} (hl : (M.withGhost f g₀).run p l = some q) :
    M.run p.1 l = some q.1 := by
  induction l generalizing p with
  | nil => rw [← Option.some.inj hl, run_nil]
  | cons a l ih =>
    obtain ⟨u, hu, hl⟩ := (run_cons_eq_some _).mp hl
    exact (run_cons_eq_some M).mpr ⟨u.1, (withGhost_step_eq_some.mp hu).1, ih hl⟩

/-- The ghost follows every run of the machine. -/
theorem withGhost_run {s t : σ} {l : List α} (hl : M.run s l = some t) (g : γ) :
    ∃ g', (M.withGhost f g₀).run (s, g) l = some (t, g') := by
  induction l generalizing s g with
  | nil => exact ⟨g, congrArg (fun u => some (u, g)) (Option.some.inj hl)⟩
  | cons a l ih =>
    obtain ⟨u, hu, hl⟩ := (run_cons_eq_some M).mp hl
    obtain ⟨g', hg'⟩ := ih hl (f s a g)
    exact ⟨g', (run_cons_eq_some _).mpr ⟨(u, f s a g), withGhost_step_eq_some.mpr ⟨hu, rfl⟩, hg'⟩⟩

/-! ## What a run gives -/

section Collect

variable {β : Type*} (M)

/-- What the steps of a run give, one after the other, as far as the labels are accepted. -/
def collect (gives : σ → α → List β) : σ → List α → List β
  | _, [] => []
  | s, a :: l => gives s a ++ (M.step s a).elim [] fun t => collect gives t l

variable {M} {gives : σ → α → List β} {G : σ → α → Prop} {s t : σ} {l : List α}

theorem collect_append {k : List α} (hk : M.run s k = some t) (l : List α) :
    M.collect gives s (k ++ l) = M.collect gives s k ++ M.collect gives t l := by
  induction k generalizing s with
  | nil =>
    obtain rfl := Option.some.inj hk
    rfl
  | cons a k ih =>
    obtain ⟨u, hu, hk⟩ := (run_cons_eq_some M).mp hk
    rw [List.cons_append, Machine.collect, Machine.collect, hu, Option.elim_some, Option.elim_some,
      ih hk, List.append_assoc]

/-- **The invariant rule with what was given**, in two ways: what every step that meets `G`
preserves, adding what the step gives, a run preserves, adding what the run gives. -/
theorem EachStep.collect {β' : Type*} {e : σ → α → List β'} {I : σ → List β → List β' → Prop}
    {g : List β} {d : List β'} (h : M.EachStep (fun s a _ => G s a) s l)
    (hstep : ∀ s a t g d, I s g d → G s a → M.step s a = some t →
      I t (g ++ gives s a) (d ++ e s a))
    (hs : I s g d) (hl : M.run s l = some t) :
    I t (g ++ M.collect gives s l) (d ++ M.collect e s l) := by
  induction l generalizing s g d with
  | nil =>
    obtain rfl := Option.some.inj hl
    rw [Machine.collect, Machine.collect, List.append_nil, List.append_nil]
    exact hs
  | cons a l ih =>
    obtain ⟨u, hu, hl⟩ := (run_cons_eq_some M).mp hl
    obtain ⟨hG, h⟩ := h u hu
    have hnext := ih h (hstep s a u g d hs hG hu) hl
    rw [List.append_assoc, List.append_assoc] at hnext
    rw [Machine.collect, Machine.collect, hu]
    exact hnext

end Collect

end Machine
