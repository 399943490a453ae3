import Asyncgi.Runtime.State

/-!
# Timers

`TimerService` over asio's `steady_timer`: `expires_after` and `cancel` abort the waits that are
still pending; a wait that has expired and is queued for delivery keeps its success.

## Main definitions

* `TimerService.start`, `TimerService.startPeriodic`, `TimerService.stop`
* `Timer.make`: the constructors of `Timer`
-/

namespace Asyncgi

namespace State

variable (s : State)

/-- A new `TimerService`; its number is the old `timerCount`. -/
@[simps -fullyApplied]
def emplaceTimer (timer : TimerService) : State :=
  { s with
    timers := Function.update s.timers s.timerCount timer
    timerCount := s.timerCount + 1 }

/-- `timer_.cancel()`, which is also what `timer_.expires_after` does to pending waits. -/
@[simps! -fullyApplied]
def cancelTimer (t : TimerId) : State := s.abort (·.onTimer t)

end State

namespace TimerService

/-- `if (requestProcessorQueue_) requestProcessorQueue_->stop();` -/
@[simps! -fullyApplied]
def stopQueue (s : State) (t : TimerId) : State :=
  (s.use (.timer t)).queueStop (s.timers t).maker (s.timers t).requestProcessorQueue

/-- `TimerService::start`. -/
@[simps! -fullyApplied]
def start (s : State) (t : TimerId) (time : Milliseconds) (task : Task) : State :=
  ((stopQueue s t).cancelTimer t).async (.oneShot t task) time

/-- `TimerService::startPeriodic`. -/
@[simps! -fullyApplied]
def startPeriodic (s : State) (t : TimerId) (time : Milliseconds) (task : Task) : State :=
  ((stopQueue s t).cancelTimer t).async (.periodic t time task) time

/-- `TimerService::stop`. -/
@[simps! -fullyApplied]
def stop (s : State) (t : TimerId) : State :=
  (((s.use (.timer t)).cancelTimer t).emit [.timerStopped t]).queueLaunch
    (s.timers t).maker (s.timers t).requestProcessorQueue

end TimerService

/-- `Timer::Timer(IO&)`, and `Timer::Timer(Responder&)` on a responder of `r`: without the
request's context the timer has no service. -/
def Timer.make (s : State) : Option RequestId → State
  | none => s.emplaceTimer {}
  | some r =>
    if s.server.responseContext = some r then
      s.emplaceTimer
        { owner := .connection, maker := some r, requestProcessorQueue := s.providerQueue }
    else s

section Make

variable {s : State} {r : RequestId}

theorem Timer.make_current (h : s.server.responseContext = some r) :
    Timer.make s (some r) = s.emplaceTimer
      { owner := .connection, maker := some r, requestProcessorQueue := s.providerQueue } :=
  if_pos h

theorem Timer.make_expired (h : s.server.responseContext ≠ some r) : Timer.make s (some r) = s :=
  if_neg h

end Make

end Asyncgi
