import Asyncgi.Request.Answers

/-!
# Exceptions of route processors

The initial launch of a request's queue runs under the try block of `processRequest`: what its
processors throw is answered with the 500 and reported, unless user code in between, a processor
that has launched the queue again by `Timer::stop`, catches it. A launch that an operation makes
later runs from a handler of the event loop, which catches nothing, or from the destructor of a
`PostAction`, which ends the program.

## Main definitions

* `caught`: an exception gets to the try block on its way down the stack
* `Contained`: the outcome of an exception that is contained

## Main results

* `exceptions_contained_iff`: in a run the exceptions of the route processors are contained exactly
  when they all get to the try block
-/

namespace Asyncgi

/-- An exception that goes down the stack meets the try block of `processRequest`, and meets it
before a destructor and before the user code that `catcher` names. -/
def caught (catcher : Option Nat) : List Frame → Bool
  | [] => false
  | .user _ :: fs => catcher ≠ some fs.length && caught catcher fs
  | .tryBlock _ :: _ => true
  | .postAction _ :: _ => false
  | _ :: fs => caught catcher fs

/-- The request `r` is answered with the 500 unless it has an answer, one event is reported, and
the exception leaves neither the handler that is run nor a destructor. -/
structure Contained (what : Option String) (r : RequestId) (s t : State) : Prop where
  answered : t.server.answers = s.server.answers ++
    if s.server.answers.any (·.request == r) then []
    else [{ request := r, through := r, answer := .internalServerError }]
  reported : t.errors = s.errors ++ [(.requestProcessingError, what.getD "Unknown error")]
  confined : .escaped ∉ t.trace.drop s.trace.length ∧ t.terminated = false

/-- What a route processor throws is contained. -/
def ExceptionContained (s : State) (l : Label) (t : State) : Prop :=
  ∀ what catcher r fs, l = .throw what catcher → s.stack = .user (.processor r) :: fs →
    Contained what r s t

/-- A route processor only throws under the try block, and no user code in between catches what it
throws. -/
def ThrowsCaught (s : State) (l : Label) : Prop :=
  ∀ what catcher r fs, l = .throw what catcher → s.stack = .user (.processor r) :: fs →
    caught catcher fs

namespace State

variable {s t : State} {fs : List Frame} {context : Option RequestId} {r : RequestId}
  {catcher : Option Nat}

theorem caught_handlers (h : ∀ g ∈ fs, g.isHandler) : caught catcher fs = false := by
  induction fs with
  | nil => rfl
  | cons f fs ih =>
    obtain ⟨hf, hfs⟩ := List.forall_mem_cons.mp h
    cases f <;> first | exact ih hfs | cases hf

/-- The try block is at the bottom of the stack, with no handler above it. -/
theorem unwind_caught (what : Option String) (h : Asyncgi.Stacked context fs)
    (hc : caught catcher fs) :
    unwind what catcher fs s = Connection.catchException { s with stack := [] } what := by
  induction fs with
  | nil => cases hc
  | cons f fs ih =>
    cases f
    case tryBlock r =>
      obtain ⟨⟨-, rfl⟩, -⟩ := h
      rfl
    case user code =>
      simp only [caught, Bool.and_eq_true, decide_eq_true_eq] at hc
      unfold unwind
      rw [if_neg hc.1]
      exact ih h.2 hc.2
    case postAction => cases hc
    case launch => exact ih h.2 hc
    all_goals exact absurd hc (by simpa [caught] using caught_handlers h.1)

theorem releaseHeld_errors (s : State) (p : PostId) :
    (TaskContext.releaseHeld s p).errors = s.errors := by
  unfold TaskContext.releaseHeld
  split <;> rfl

/-- An exception that does not reach the try block is not reported. -/
theorem unwind_uncaught (what : Option String) (hc : caught catcher fs = false) :
    (unwind what catcher fs s).errors = s.errors := by
  induction fs generalizing s with
  | nil => rfl
  | cons f fs ih =>
    cases f
    case user code =>
      unfold unwind
      split
      · rfl
      next hpasses => exact ih (by simpa [caught, hpasses] using hc)
    case tryBlock r => cases hc
    case postAction => rfl
    case taskHandler p =>
      unfold unwind
      split
      · exact releaseHeld_errors _ p
      · exact (ih hc).trans (releaseHeld_errors s p)
    all_goals exact ih hc

/-- A route processor is a processor of the current request. -/
theorem current_of_processor (h : s.Stacked) (hstack : s.stack = .user (.processor r) :: fs) :
    s.server.responseContext = some r := by
  rw [State.Stacked, hstack] at h
  obtain ⟨⟨gs, rfl⟩, hbelow⟩ := h
  exact hbelow.1

/-- The 500 is the answer to the current request unless it has one. -/
theorem sendError_answers {L : Ledger RequestId Answer} (hL : s.server.Books L)
    (hr : s.server.responseContext = some r) :
    s.server.sendError.answers = s.server.answers ++
      if s.server.answers.any (·.request == r) then []
      else [{ request := r, through := r, answer := .internalServerError }] := by
  have hsend : s.server.sendError = Responder.send s.server r .internalServerError := by
    simp [Server.sendError, hr]
  have hany : s.server.answers.any (·.request == r) = true ↔ ¬ L.IsFree r := by
    simp [hL.answers, Ledger.IsFree]
  rw [hsend, hL.send_current hr]
  by_cases hfree : L.IsFree r
  · simp only [hfree, if_true, hany, not_true_eq_false, if_false]
  · simp only [hfree, if_false, hany, not_false_eq_true, if_true, List.append_nil]

end State

/-- An exception of a route processor is contained exactly when it is thrown under the try
block. -/
theorem contained_iff {s t : State} (h : s.Stacked) {L : Ledger RequestId Answer}
    (hL : s.server.Books L) (halive : s.terminated = false) {l : Label} (hstep : Step s l t) :
    ExceptionContained s l t ↔ ThrowsCaught s l := by
  constructor
  · rintro hcontained what catcher r fs rfl hstack
    have hreported := (hcontained what catcher r fs rfl hstack).reported
    cases hstep with
    | throw hstack' =>
      obtain ⟨-, rfl⟩ := List.cons.inj (hstack.symm.trans hstack')
      by_contra hc
      rw [State.unwind_uncaught what (by simpa using hc)] at hreported
      simp at hreported
  · rintro hcaught what catcher r fs rfl hstack
    have hc := hcaught what catcher r fs rfl hstack
    have hcurrent := State.current_of_processor h hstack
    cases hstep with
    | throw hstack' =>
      obtain ⟨-, rfl⟩ := List.cons.inj (hstack.symm.trans hstack')
      rw [State.Stacked, hstack] at h
      rw [State.unwind_caught what h.2 hc]
      refine ⟨State.sendError_answers hL hcurrent, rfl, ?_, halive⟩
      simp

/-- **Contained exceptions, exactly.** In a run every exception that a route processor throws is
answered with the 500 where nothing was sent, reported once, and stays inside the handler that is
run, if and only if the route processors only throw under the try block of `processRequest`, and
what they throw is not caught before it gets there. -/
theorem exceptions_contained_iff (l : List Label) :
    runtime.EachStep ExceptionContained runtime.init l ↔
      runtime.EachStep (fun s a _ => ThrowsCaught s a) runtime.init l := by
  refine Machine.eachStep_iff
    (J := fun s => (Registered s ∧ s.Stacked) ∧ ∃ L, s.server.Books L) ?_ ?_
    ⟨⟨Registered.init, Stacked.nil⟩, _, Server.books_init⟩ l
  · rintro s a t ⟨⟨-, hstacked⟩, L, hL⟩ hstep
    exact contained_iff hstacked hL (State.step_terminated hstep) (Step.of_step hstep)
  · rintro s a t ⟨⟨hreg, hstacked⟩, L, hL⟩ - hstep
    have hstep := Step.of_step hstep
    obtain ⟨M, -, hM⟩ := hL.moves (State.moves_step hstep)
    exact ⟨⟨hreg.step hstep, Stacked.step hreg hstacked hstep⟩, M, hM⟩

/-- The processor that the expiry of a timer has launched throws. -/
theorem exception_escapes : ¬ runtime.EachStep ExceptionContained runtime.init
    ((timerRun ++ [.runProcessor]) ++ [.throw (some "what")]) := by
  intro h
  have hcontained := h.last rfl rfl (some "what") none 0 [.launch 0] rfl rfl
  exact absurd hcontained.reported (by decide)

end Asyncgi
