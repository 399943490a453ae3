import Mathlib.Data.List.Nodup

/-!
# First-come ledgers

A ledger gives each key at most one value: the first that is recorded for it. Entries are kept in
the order in which they were made, and are never changed or removed.

## Main definitions

* `Ledger`: entries with distinct keys
* `Ledger.record`: the value is entered where the key is free
* `Ledger.Extends`: later states of a ledger
-/

universe u v

/-- Entries with distinct keys. -/
structure Ledger (κ : Type u) (ν : Type v) where
  entries : List (κ × ν)
  nodup : (entries.map Prod.fst).Nodup

namespace Ledger

variable {κ : Type u} {ν : Type v} {L M N : Ledger κ ν} {k : κ} {x : ν}

/-- The ledger without entries. -/
def empty : Ledger κ ν := ⟨[], List.nodup_nil⟩

/-- No value has been recorded for the key. -/
def IsFree (L : Ledger κ ν) (k : κ) : Prop := k ∉ L.entries.map Prod.fst

instance [DecidableEq κ] (L : Ledger κ ν) (k : κ) : Decidable (L.IsFree k) :=
  inferInstanceAs (Decidable (k ∉ L.entries.map Prod.fst))

/-- The entry of a free key. -/
def enter (L : Ledger κ ν) (k : κ) (x : ν) (h : L.IsFree k) : Ledger κ ν where
  entries := L.entries ++ [(k, x)]
  nodup := by
    rw [List.map_append, List.nodup_append]
    refine ⟨L.nodup, List.nodup_singleton k, ?_⟩
    rintro a ha b hb rfl
    obtain rfl := List.mem_singleton.mp hb
    exact h ha

/-- The value is entered where the key is free; the first value stays. -/
def record [DecidableEq κ] (L : Ledger κ ν) (k : κ) (x : ν) : Ledger κ ν :=
  if h : L.IsFree k then L.enter k x h else L

/-- `M` is a later state of `L`. -/
def Extends (L M : Ledger κ ν) : Prop := L.entries <+: M.entries

theorem Extends.refl (L : Ledger κ ν) : L.Extends L := List.prefix_refl _

theorem Extends.trans (h : L.Extends M) (h' : M.Extends N) : L.Extends N := List.IsPrefix.trans h h'

/-- A key that has a value keeps it. -/
theorem Extends.not_isFree (h : L.Extends M) (hk : ¬ L.IsFree k) : ¬ M.IsFree k := by
  unfold IsFree at hk ⊢
  rw [not_not] at hk ⊢
  obtain ⟨e, he, rfl⟩ := List.mem_map.mp hk
  exact List.mem_map_of_mem (h.subset he)

theorem isFree_enter (h : L.IsFree k) (k' : κ) : (L.enter k x h).IsFree k' ↔
    L.IsFree k' ∧ k' ≠ k := by
  simp [enter, IsFree]

theorem extends_enter (h : L.IsFree k) : L.Extends (L.enter k x h) := List.prefix_append _ _

section Record

variable [DecidableEq κ]

theorem record_free (h : L.IsFree k) : L.record k x = L.enter k x h := dif_pos h

theorem record_taken (h : ¬ L.IsFree k) : L.record k x = L := dif_neg h

theorem extends_record (L : Ledger κ ν) (k : κ) (x : ν) : L.Extends (L.record k x) := by
  by_cases h : L.IsFree k
  · rw [record_free h]
    exact extends_enter h
  · rw [record_taken h]
    exact Extends.refl L

end Record

end Ledger
