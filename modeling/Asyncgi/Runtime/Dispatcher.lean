import Asyncgi.Runtime.Responder

/-!
# Posted tasks and exceptions

A posted task and the handlers it starts share a `TaskContext`; the destructor of the last copy
launches the queue. An exception unwinds the call stack: user code on its way may catch it, the try
block of `Connection::processRequest` does, a posted task's closure is destroyed, a destructor ends
the program, and otherwise it leaves the handler that the event loop runs.

## Main definitions

* `AsioDispatcherService.postTask`, `TaskContext.release`
* `State.unwind`: an exception

## Main results

* `State.unwind_invariant`: what an exception leaves as it is
-/

namespace Asyncgi

/-- `AsioDispatcherService::postTask`, on the connection's service for a `maker`, or on one made
from `IO`. The closure is queued for delivery at once. -/
@[simps! -fullyApplied]
def AsioDispatcherService.postTask (s : State) (maker : Option RequestId) : State :=
  let p := s.postCount
  let queue := maker.bind fun _ => s.dispatcherQueue
  let s := s.queueStop maker (s.server.lock queue)
  { s with
    contexts := Function.update s.contexts p
      { maker := maker, queueObserver := queue, held := true }
    postCount := p + 1
    ops := s.ops ++ [{ handler := .postedTask p, status := .done none }] }

namespace TaskContext

/-- `~PostAction`: the action launches the queue if it still exists. -/
@[simps! -fullyApplied]
def destroy (s : State) (p : PostId) : State :=
  let queue := s.server.lock (s.contexts p).queueObserver
  let s := (s.emit [.contextDestroyed p]).push (queue.toList.map fun _ => .postAction p)
  s.queueLaunch (s.contexts p).maker queue

/-- The context with one copy fewer. -/
@[simps! -fullyApplied]
def setContext (s : State) (p : PostId) (context : PostAction) : State :=
  { s with contexts := Function.update s.contexts p context }

/-- The copy in the posted closure is destroyed. -/
def releaseHeld (s : State) (p : PostId) : State :=
  let s' := setContext s p { s.contexts p with held := false }
  if (s.contexts p).copies = 0 then destroy s' p else s'

/-- A copy of the user's is made. -/
@[simps! -fullyApplied]
def copy (s : State) (p : PostId) : State :=
  setContext s p { s.contexts p with copies := (s.contexts p).copies + 1 }

/-- A copy of the user's is destroyed. -/
def release (s : State) (p : PostId) : State :=
  let s' := setContext s p { s.contexts p with copies := (s.contexts p).copies - 1 }
  if (s.contexts p).copies ≤ 1 ∧ (s.contexts p).held = false then destroy s' p else s'

section Release

variable {s : State} {p : PostId}

theorem releaseHeld_last (h : (s.contexts p).copies = 0) :
    releaseHeld s p = destroy (setContext s p { s.contexts p with held := false }) p := if_pos h

theorem releaseHeld_shared (h : (s.contexts p).copies ≠ 0) :
    releaseHeld s p = setContext s p { s.contexts p with held := false } := if_neg h

theorem release_last (h : (s.contexts p).copies ≤ 1 ∧ (s.contexts p).held = false) :
    release s p =
      destroy (setContext s p { s.contexts p with copies := (s.contexts p).copies - 1 }) p :=
  if_pos h

theorem release_shared (h : ¬ ((s.contexts p).copies ≤ 1 ∧ (s.contexts p).held = false)) :
    release s p = setContext s p { s.contexts p with copies := (s.contexts p).copies - 1 } :=
  if_neg h

section NoLaunch

variable (h : ¬ ((s.contexts p).copies = 0 ∧ (s.server.lock (s.contexts p).queueObserver).isSome))
include h

/-- Where no queue is to be launched, the call stack does not matter. -/
theorem releaseHeld_withStack (fs : List Frame) :
    { releaseHeld s p with stack := fs } = releaseHeld { s with stack := fs } p := by
  by_cases hcopies : (s.contexts p).copies = 0
  · have hlock : s.server.lock (s.contexts p).queueObserver = none := by
      by_contra hsome
      exact h ⟨hcopies, Option.isSome_iff_ne_none.mpr hsome⟩
    rw [releaseHeld_last hcopies, releaseHeld_last (s := { s with stack := fs }) hcopies]
    simp [destroy, setContext, State.emit, State.push, State.queueLaunch, hlock]
  · rw [releaseHeld_shared hcopies, releaseHeld_shared (s := { s with stack := fs }) hcopies]
    rfl

/-- Where no queue is to be launched, the call stack stays as it is. -/
theorem releaseHeld_stack : (releaseHeld s p).stack = s.stack := by
  have hsame := congrArg State.stack (releaseHeld_withStack h s.stack)
  exact hsame.symm

end NoLaunch

end Release

end TaskContext

namespace State

/-- An exception propagates through the frames, the innermost first. The user code that is called
from `catcher` frames, where there is such code, catches it. -/
def unwind (what : Option String) (catcher : Option Nat) : List Frame → State → State
  | [], s => { s with stack := [], trace := s.trace ++ [.escaped] }
  | .user code :: fs, s =>
    if catcher = some fs.length then { s with stack := .user code :: fs }
    else unwind what catcher fs s
  | .tryBlock _ :: fs, s => Connection.catchException { s with stack := fs } what
  | .postAction _ :: _, s =>
    { s with stack := [], terminated := true, trace := s.trace ++ [.terminated] }
  | .taskHandler p :: fs, s =>
    -- the closure is destroyed; where that launches the queue, the exception waits
    if (s.contexts p).copies = 0 ∧ (s.server.lock (s.contexts p).queueObserver).isSome then
      TaskContext.releaseHeld { s with stack := .rethrow what :: fs } p
    else unwind what catcher fs (TaskContext.releaseHeld s p)
  | _ :: fs, s => unwind what catcher fs s

/-- The code of asyncgi on top of the stack throws; it is not called from user code. -/
def throw (s : State) (what : Option String) : State := unwind what none s.stack s

/-- **The rule for exceptions**: what does not depend on the call stack, and survives the
destruction of a closure and the ways an exception can end, survives an exception. -/
theorem unwind_invariant {I : State → Prop} {what : Option String}
    (hstack : ∀ s fs, I s → I { s with stack := fs })
    (hrelease : ∀ s p, I s → I (TaskContext.releaseHeld s p))
    (hcatch : ∀ s, I s → I (Connection.catchException s what))
    (hescaped : ∀ s, I s → I { s with stack := [], trace := s.trace ++ [.escaped] })
    (hterminated : ∀ s, I s →
      I { s with stack := [], terminated := true, trace := s.trace ++ [.terminated] })
    (catcher : Option Nat) (fs : List Frame) {s : State} (h : I s) :
    I (unwind what catcher fs s) := by
  induction fs generalizing s with
  | nil => exact hescaped s h
  | cons f fs ih =>
    cases f
    case user code =>
      unfold unwind
      split
      · exact hstack s _ h
      · exact ih h
    case tryBlock r => exact hcatch _ (hstack s fs h)
    case postAction p => exact hterminated s h
    case taskHandler p =>
      unfold unwind
      split
      · exact hrelease _ p (hstack s _ h)
      · exact ih (hrelease s p h)
    all_goals exact ih h

end State

end Asyncgi
