import Asyncgi.Runtime.Stack

/-!
# Nested callbacks

Callbacks, response handlers, posted tasks and request processors are called from the event loop:
asyncgi puts none of them on the call stack while user code is there. What it puts above user code
are the route processors of the connection's current request, where the code stops a timer, destroys
a context or returns.

Two calls that asyncgi makes inside user code have no frame here: the event handler's, where a
socket is closed with an error, as within `disconnect`; and that of `launch` on the queue of a
request that has been replaced, where a timer of that request is stopped.

## Main definitions

* `Frame.isCallback`: user code other than route processors
* `Frame.IsInside`: what asyncgi can run inside user code

## Main results

* `Stacked.count_callbacks`, `Stacked.inside`, `Stacked.below`: the stack of a callback
* `callbacks_not_nested`
-/

namespace Asyncgi

/-- A route processor. -/
def UserCode.isProcessor : UserCode → Bool
  | processor _ => true
  | _ => false

/-- User code other than route processors. -/
def Frame.isCallback : Frame → Bool
  | user u => !u.isProcessor
  | _ => false

/-- What asyncgi can put on the stack above user code: launches of the queue of the current request,
its processors, and the destructor of a task's context. -/
def Frame.IsInside (context : Option RequestId) : Frame → Prop
  | launch q | user (.processor q) => context = some q
  | postAction _ => True
  | _ => False

namespace Stacked

variable {context : Option RequestId} {f : Frame} {fs gs : List Frame} {u : UserCode}

/-- A route processor is run by a launch of its queue, which is the current request's. -/
theorem processor_current {q : RequestId} (h : Stacked context (.user (.processor q) :: fs)) :
    context = some q := by
  obtain ⟨⟨gs, rfl⟩, hfs⟩ := h
  exact hfs.1

/-- What is under user code is not user code. -/
theorem not_callback_of_base {f : Frame} (h : f.isBase = true) : f.isCallback = false := by
  cases f <;> first | rfl | cases h

/-- Under a callback there is no user code. -/
theorem below (h : Stacked context (.user u :: fs)) (hu : u.isProcessor = false) :
    ∀ g ∈ fs, g.isBase = true := by
  have hsits := h.1
  cases u
  case processor => cases hu
  all_goals exact hsits

/-- There is at most one callback. -/
theorem count_callbacks (h : Stacked context fs) : fs.countP Frame.isCallback ≤ 1 := by
  induction fs with
  | nil => exact Nat.zero_le 1
  | cons f fs ih =>
    by_cases hf : f.isCallback = true
    · have hnone : fs.countP Frame.isCallback = 0 := by
        rw [List.countP_eq_zero]
        intro g hg
        cases f
        case user u =>
          have hbase := h.below (by simpa [Frame.isCallback] using hf) g hg
          simp [not_callback_of_base hbase]
        all_goals cases hf
      simp [List.countP_cons_of_pos hf, hnone]
    · rw [List.countP_cons_of_neg hf]
      exact ih h.2

/-- What can be above user code. -/
theorem sits_inside (h : f.Sits context fs) (hfs : Stacked context fs) (hu : .user u ∈ fs) :
    f.IsInside context := by
  have hbase : ¬ ∀ g ∈ fs, g.isBase = true := fun hall => by cases hall _ hu
  have hhandler : ¬ ∀ g ∈ fs, g.isHandler = true := fun hall => by cases hall _ hu
  cases f with
  | launch q => exact h
  | postAction p => trivial
  | user v =>
    cases v with
    | processor q =>
      obtain ⟨gs, rfl⟩ := h
      exact hfs.1
    | _ => exact absurd h hbase
  | tryBlock r =>
    rw [h.2] at hu
    cases hu
  | _ => exact absurd h hhandler

/-- All that is above user code was run inside it. -/
theorem inside (h : Stacked context (fs ++ .user u :: gs)) : ∀ f ∈ fs, f.IsInside context := by
  induction fs with
  | nil => simp
  | cons f fs ih =>
    refine List.forall_mem_cons.mpr ⟨?_, ih h.2⟩
    apply sits_inside (u := u) h.1 h.2
    simp

end Stacked

/-- **Callbacks do not nest.** In every reachable state at most one callback, handler, task or
request processor of user code is on the call stack; it was called from the event loop, or from
the try block of its request; and what is on the stack above it, as above a route processor, are
launches of the queue of the connection's current request, the route processors of this request,
and destructors of contexts. -/
theorem callbacks_not_nested {s : State} (h : runtime.Reachable s) :
    s.stack.countP Frame.isCallback ≤ 1 ∧
    ∀ fs u gs, s.stack = fs ++ .user u :: gs →
      (∀ f ∈ fs, f.IsInside s.server.responseContext) ∧
      match u with
      | .processor q => s.server.responseContext = some q ∧ ∃ below, gs = .launch q :: below
      | _ => ∀ g ∈ gs, g.isBase = true := by
  have hstack := stacked_of_reachable h
  refine ⟨Stacked.count_callbacks hstack, fun fs u gs hs => ?_⟩
  rw [State.Stacked, hs] at hstack
  refine ⟨Stacked.inside hstack, ?_⟩
  have htop : Stacked s.server.responseContext (.user u :: gs) := by
    clear hs
    induction fs with
    | nil => exact hstack
    | cons f fs ih => exact ih hstack.2
  cases u with
  | processor q => exact ⟨htop.processor_current, htop.1⟩
  | _ => exact htop.1

/-- A timer's callback stops the timer, which launches the queue inside the callback. -/
def nestedRun : List Label := timerRun.dropLast.dropLast ++ [.command (.stop 0), .runProcessor]

/-- The next route processor runs inside the callback. -/
theorem callbacks_not_nested_stop :
    ∃ s, runtime.run runtime.init nestedRun = some s ∧
      s.stack = [.user (.processor 0), .launch 0, .user (.timerCallback 0 1), .afterOneShot 0] ∧
      s.stack.countP Frame.isCallback ≤ 1 ∧
      ∀ f ∈ [Frame.user (.processor 0), .launch 0], f.IsInside s.server.responseContext := by
  have hrun : ∃ s, runtime.run runtime.init nestedRun = some s ∧
      s.stack = [.user (.processor 0), .launch 0, .user (.timerCallback 0 1), .afterOneShot 0] :=
    ⟨_, rfl, rfl⟩
  obtain ⟨s, hs, hstack⟩ := hrun
  have ⟨hcount, hsplit⟩ := callbacks_not_nested ⟨nestedRun, hs⟩
  exact ⟨s, hs, hstack, hcount, (hsplit _ _ _ hstack).1⟩

end Asyncgi
