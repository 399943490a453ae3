import Mathlib.Data.List.Forall2

/-!
# Selected entries

A machine that keeps all its operations in one list is related to a machine that knows some of
them only, and knows of these something else: the operations are selected by a `filterMap`, and
what is selected corresponds to the other machine's list entry by entry. What happens to one
operation happens then to one entry, at a position of its own.

## Main results

* `exists_filterMap_eraseIdx`, `exists_filterMap_set`: a selected entry that is taken out, or
  changed
* `List.Forall₂.exists_entry`, `List.Forall₂.eraseIdx`, `List.Forall₂.set`: corresponding entries
-/

universe u v

section FilterMap

variable {α : Type u} {β : Type v} {f : α → Option β} {l : List α} {i : Nat} {x x' : α} {y y' : β}

/-- An entry of which something is kept stands somewhere in what is kept of the list. -/
theorem exists_filterMap_eraseIdx (h : l[i]? = some x) (hx : f x = some y) :
    ∃ j, (l.filterMap f)[j]? = some y ∧
      (l.eraseIdx i).filterMap f = (l.filterMap f).eraseIdx j := by
  induction l generalizing i with
  | nil => simp at h
  | cons a l ih =>
    cases i with
    | zero =>
      obtain rfl := Option.some.inj h
      refine ⟨0, ?_, ?_⟩ <;> rw [List.filterMap_cons_some hx] <;> rfl
    | succ i =>
      obtain ⟨j, hj, herase⟩ := ih h
      rw [List.eraseIdx_cons_succ]
      cases hf : f a with
      | none =>
        rw [List.filterMap_cons_none hf, List.filterMap_cons_none hf]
        exact ⟨j, hj, herase⟩
      | some b =>
        rw [List.filterMap_cons_some hf, List.filterMap_cons_some hf]
        exact ⟨j + 1, hj, by rw [List.eraseIdx_cons_succ, herase]⟩

/-- An entry is changed, and with it what is kept of it. -/
theorem exists_filterMap_set (h : l[i]? = some x) (hx : f x = some y) (hx' : f x' = some y') :
    ∃ j, (l.filterMap f)[j]? = some y ∧ (l.set i x').filterMap f = (l.filterMap f).set j y' := by
  induction l generalizing i with
  | nil => simp at h
  | cons a l ih =>
    cases i with
    | zero =>
      obtain rfl := Option.some.inj h
      refine ⟨0, ?_, ?_⟩
      · rw [List.filterMap_cons_some hx]
        rfl
      · rw [List.set_cons_zero, List.filterMap_cons_some hx', List.filterMap_cons_some hx]
        rfl
    | succ i =>
      obtain ⟨j, hj, hset⟩ := ih h
      rw [List.set_cons_succ]
      cases hf : f a with
      | none =>
        rw [List.filterMap_cons_none hf, List.filterMap_cons_none hf]
        exact ⟨j, hj, hset⟩
      | some b =>
        rw [List.filterMap_cons_some hf, List.filterMap_cons_some hf]
        exact ⟨j + 1, hj, by rw [List.set_cons_succ, hset]⟩

/-- An entry of which nothing is kept is changed. -/
theorem filterMap_set_of_none (h : l[i]? = some x) (hx : f x = none) (hx' : f x' = none) :
    (l.set i x').filterMap f = l.filterMap f := by
  induction l generalizing i with
  | nil => simp at h
  | cons a l ih =>
    cases i with
    | zero =>
      obtain rfl := Option.some.inj h
      rw [List.set_cons_zero, List.filterMap_cons_none hx', List.filterMap_cons_none hx]
    | succ i =>
      rw [List.set_cons_succ, List.filterMap_cons, List.filterMap_cons, ih h]

end FilterMap

namespace List.Forall₂

variable {α : Type u} {β : Type v} {R : α → β → Prop} {l : List α} {m : List β} {x : α} {y : β}

theorem exists_entry (h : List.Forall₂ R l m) {i : Nat} (hx : l[i]? = some x) :
    ∃ y, m[i]? = some y ∧ R x y := by
  induction h generalizing i with
  | nil => simp at hx
  | @cons a b l m hab _ ih =>
    cases i with
    | zero =>
      obtain rfl := Option.some.inj hx
      exact ⟨b, rfl, hab⟩
    | succ i => exact ih hx

theorem eraseIdx (h : List.Forall₂ R l m) (i : Nat) :
    List.Forall₂ R (l.eraseIdx i) (m.eraseIdx i) := by
  induction h generalizing i with
  | nil => exact .nil
  | cons hab hlm ih =>
    cases i with
    | zero => exact hlm
    | succ i => exact .cons hab (ih i)

theorem set (h : List.Forall₂ R l m) (hxy : R x y) (i : Nat) :
    List.Forall₂ R (l.set i x) (m.set i y) := by
  induction h generalizing i with
  | nil => exact .nil
  | cons hab hlm ih =>
    cases i with
    | zero => exact .cons hxy hlm
    | succ i => exact .cons hab (ih i)

/-- Only the one list is changed. -/
theorem set_left (h : List.Forall₂ R l m) {i : Nat} (hy : m[i]? = some y) (hxy : R x y) :
    List.Forall₂ R (l.set i x) m := by
  induction h generalizing i with
  | nil => exact .nil
  | @cons a b l m hab hlm ih =>
    cases i with
    | zero =>
      obtain rfl := Option.some.inj hy
      exact .cons hxy hlm
    | succ i => exact .cons hab (ih hy)

end List.Forall₂
