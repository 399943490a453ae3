import Asyncgi.Transition.Run

/-!
# An ordered, lossless pipe

The abstract account of a buffered writer: what was accepted is what was delivered followed by
what is still pending, so nothing is lost, repeated or reordered in any state that can be
written down.

## Main definitions

* `Pipe`, `Pipe.accepted`: the delivered and the pending entries, in order
* `Pipe.machine`: entries are accepted at one end and delivered at the other

## Main results

* `Pipe.delivered_prefix`: what was delivered is a prefix of what was accepted
* `Pipe.accepted_run`: a run accepts the inputs of its labels, in order
-/

universe u

/-- The entries that left the pipe and those still in it. -/
structure Pipe (α : Type u) where
  delivered : List α := []
  pending : List α := []

namespace Pipe

variable {α : Type u}

/-- All entries that entered the pipe. -/
def accepted (p : Pipe α) : List α := p.delivered ++ p.pending

/-- What was delivered is a prefix of what was accepted. -/
theorem delivered_prefix (p : Pipe α) : p.delivered <+: p.accepted := ⟨p.pending, rfl⟩

/-- The moves of a pipe. -/
inductive Label (α : Type u)
  | accept (entries : List α)
  | deliver (n : Nat)

/-- The entries a move puts into the pipe. -/
def Label.input : Label α → List α
  | accept d => d
  | deliver _ => []

/-- The pipe's moves: accept entries at the end, or deliver the first `n` pending ones. -/
def machine (α : Type u) : Machine (Pipe α) (Label α) where
  init := {}
  step
    | p, .accept d => some { p with pending := p.pending ++ d }
    | p, .deliver n =>
      if n ≤ p.pending.length then
        some { delivered := p.delivered ++ p.pending.take n, pending := p.pending.drop n }
      else none

theorem accepted_step {p q : Pipe α} {a : Label α} (h : (machine α).step p a = some q) :
    q.accepted = p.accepted ++ a.input := by
  cases a with
  | accept d =>
    obtain rfl := Option.some.inj h
    simp [accepted, Label.input]
  | deliver n =>
    simp only [machine, Option.ite_none_right_eq_some, Option.some.injEq] at h
    obtain ⟨-, rfl⟩ := h
    simp [accepted, Label.input]

/-- **A run accepts exactly its inputs**, in their order. -/
theorem accepted_run {p q : Pipe α} {l : List (Label α)} (h : (machine α).run p l = some q) :
    q.accepted = p.accepted ++ l.flatMap Label.input := by
  induction l generalizing p with
  | nil => obtain rfl := Option.some.inj h; simp
  | cons a l ih =>
    obtain ⟨r, hr, hl⟩ := (Machine.run_cons_eq_some _).mp h
    rw [ih hl, accepted_step hr, List.flatMap_cons, List.append_assoc]

/-- A delivery of entries known to be next. -/
theorem run_deliver {p : Pipe α} {d rest : List α} (h : p.pending = d ++ rest) :
    (machine α).run p [.deliver d.length] =
      some { delivered := p.delivered ++ d, pending := rest } := by
  simp [Machine.run_cons, machine, h]

end Pipe
