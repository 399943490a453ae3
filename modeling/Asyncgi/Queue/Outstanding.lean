import Mathlib.Data.List.Basic
import Asyncgi.Runtime.State

/-!
# Outstanding operations

What the events of a run say about the operations of a request: an operation is outstanding from
its start until its completion callback has returned, its timer is stopped where it is periodic, or
the last copy of its context is destroyed.

## Main definitions

* `outstanding q trace`: the operations of the request `q` after the events
* `LaunchedIdle`: queues are launched, and processors are run, while nothing is outstanding

## Main results

* `LaunchedIdle.append`, `LaunchedIdle.concat`
-/

namespace Asyncgi

/-- The outstanding operations of the request `q` after one more event. -/
def Event.track (q : RequestId) (ops : List Operation) : Event → List Operation
  | started maker op => if maker = some q then ops ++ [op] else ops
  | returned op => ops.erase op
  | timerStopped t => ops.filter (· ≠ .periodic t)
  | contextDestroyed p => ops.filter (· ≠ .task p)
  | _ => ops

/-- The operations that were started through the responder of `q` and are outstanding. -/
def outstanding (q : RequestId) (trace : List Event) : List Operation :=
  trace.foldl (Event.track q) []

/-- The request whose queue is launched, Router's own launch apart, or runs a processor. -/
def Event.resumes : Event → Option RequestId
  | queueLaunch _ q _ | processor q => some q
  | _ => none

/-- Queues are launched, and their processors are run, only at moments when their request has no
outstanding operation. -/
def LaunchedIdle (trace : List Event) : Prop :=
  ∀ pre e post q, trace = pre ++ e :: post → e.resumes = some q → outstanding q pre = []

/-- The event neither starts nor completes an operation, the stop of a timer apart, and resumes no
queue. -/
def Event.isMild : Event → Bool
  | started (some _) _ | returned _ | contextDestroyed _ | queueLaunch _ _ _ | processor _ => false
  | _ => true

section Outstanding

variable {q : RequestId} {trace es : List Event} {e : Event} {op : Operation}

@[simp] theorem outstanding_concat :
    outstanding q (trace ++ [e]) = e.track q (outstanding q trace) := by
  simp [outstanding]

theorem outstanding_append :
    outstanding q (trace ++ es) = es.foldl (Event.track q) (outstanding q trace) :=
  List.foldl_append

theorem Event.resumes_of_mild (h : e.isMild) : e.resumes = none := by
  cases e <;> first | rfl | cases h

/-- A mild event takes out a periodic timer at most. -/
theorem Event.track_of_mild (h : e.isMild) (ops : List Operation) :
    (e.track q ops).Sublist ops ∧ ∀ op, (∀ t, op ≠ .periodic t) →
      (e.track q ops).count op = ops.count op := by
  cases e
  case started maker op =>
    cases maker with
    | none => exact ⟨List.Sublist.refl _, fun _ _ => rfl⟩
    | some r => cases h
  case timerStopped t =>
    refine ⟨List.filter_sublist, fun op hop => ?_⟩
    exact List.count_filter (by simpa using hop t)
  case returned | contextDestroyed | queueLaunch | processor => cases h
  all_goals exact ⟨List.Sublist.refl _, fun _ _ => rfl⟩

/-- Mild events take out periodic timers at most. -/
theorem outstanding_mild (h : ∀ e ∈ es, e.isMild) :
    (outstanding q (trace ++ es)).Sublist (outstanding q trace) ∧
      ∀ op, (∀ t, op ≠ .periodic t) →
        (outstanding q (trace ++ es)).count op = (outstanding q trace).count op := by
  rw [outstanding_append]
  generalize outstanding q trace = ops
  induction es generalizing ops with
  | nil => exact ⟨List.Sublist.refl _, fun _ _ => rfl⟩
  | cons e es ih =>
    obtain ⟨he, hes⟩ := List.forall_mem_cons.mp h
    obtain ⟨hsub, hcount⟩ := Event.track_of_mild (q := q) he ops
    obtain ⟨hsub', hcount'⟩ := ih hes (e.track q ops)
    exact ⟨hsub'.trans hsub, fun op hop => (hcount' op hop).trans (hcount op hop)⟩

namespace LaunchedIdle

theorem nil : LaunchedIdle [] := by
  intro pre e post q htrace
  simp at htrace

/-- The events by their position. -/
theorem iff_getElem : LaunchedIdle es ↔ ∀ i, ∀ hi : i < es.length,
    ∀ q ∈ es[i].resumes, outstanding q (es.take i) = [] := by
  constructor
  · intro h i hi q hq
    refine h (es.take i) es[i] (es.drop (i + 1)) q ?_ hq
    rw [← List.drop_eq_getElem_cons hi, List.take_append_drop]
  · rintro h pre e post q rfl hq
    have hidle := h pre.length (by simp) q (by simpa using hq)
    simpa using hidle

instance (es : List Event) : Decidable (LaunchedIdle es) :=
  decidable_of_iff _ iff_getElem.symm

/-- One more event, that resumes a queue only when its request is idle. -/
theorem concat (h : LaunchedIdle trace) (he : ∀ q, e.resumes = some q → outstanding q trace = []) :
    LaunchedIdle (trace ++ [e]) := by
  intro pre e' post q htrace hresumes
  rcases List.eq_nil_or_concat post with rfl | ⟨post, x, rfl⟩
  · obtain ⟨rfl, heq⟩ := List.append_inj' htrace rfl
    obtain rfl := List.head_eq_of_cons_eq heq
    exact he q hresumes
  · have hsplit : trace ++ [e] = (pre ++ e' :: post) ++ [x] := by simpa using htrace
    exact h pre e' post q (List.append_inj' hsplit rfl).1 hresumes

/-- Mild events resume nothing. -/
theorem append (h : LaunchedIdle trace) (hes : ∀ e ∈ es, e.isMild) :
    LaunchedIdle (trace ++ es) := by
  induction es generalizing trace with
  | nil => rwa [List.append_nil]
  | cons e es ih =>
    obtain ⟨he, hes⟩ := List.forall_mem_cons.mp hes
    have hconcat : LaunchedIdle (trace ++ [e]) := by
      apply h.concat
      intro q hq
      rw [Event.resumes_of_mild he] at hq
      cases hq
    have := ih hconcat hes
    rwa [List.append_assoc] at this

end LaunchedIdle

end Outstanding

end Asyncgi
