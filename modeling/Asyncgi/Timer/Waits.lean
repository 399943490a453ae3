import Asyncgi.Runtime.Registry

/-!
# The waits of a timer

What asio holds for one `TimerService`: the waits that may still call their callback, pending or
expired, and the periodic waits whose handler is on the call stack and will arm the timer again.

## Main definitions

* `Order`: a call of `start`, `startPeriodic` or `stop`
* `Timing`, `State.timing`: the waits of a timer
* `State.orderTo`, `State.fires`: what a step asks of a timer, and the wait it delivers

## Main results

* `State.timing_timerStart`, `State.timing_timerStop`, …: what each function of the runtime does
  to the waits of a timer
* `Delivers.timing_fires`: the delivery of an expired wait
-/

namespace Asyncgi

/-- A call of a function of a `TimerService`, other than by the handlers of its own waits once
their callback has returned. -/
inductive Order
  | start (time : Milliseconds) (task : Task)
  | startPeriodic (time : Milliseconds) (task : Task)
  | stop
  deriving DecidableEq, Repr

/-- A wait: its handler, with the callback, and its delay. -/
abbrev Wait := Handler × Milliseconds

/-- The wait that the order puts on the timer. -/
def Order.wait (tm : TimerId) : Order → Option Wait
  | start time task => some (.oneShot tm task, time)
  | startPeriodic time task => some (.periodic tm time task, time)
  | stop => none

namespace AsyncOp

variable (tm : TimerId) (op : AsyncOp)

/-- The operation as a wait on the timer. -/
def wait : Option Wait := if op.handler.onTimer tm then some (op.handler, op.delay) else none

/-- A wait on the timer that was not aborted. -/
def live : Option Wait := if op.status.failed then none else op.wait tm

/-- A wait on the timer that has expired and is queued for delivery. -/
def expired : Option Wait := if op.status = .done none then op.wait tm else none

end AsyncOp

/-- The wait that a frame puts on the timer again once the callback has returned. -/
def Frame.rearm (tm : TimerId) : Frame → Option Wait
  | afterPeriodic t time task => if t = tm then some (.periodic t time task, time) else none
  | _ => none

/-- What there is of a timer. -/
@[ext]
structure Timing where
  /-- the waits that were not aborted -/
  waits : List Wait
  /-- those of them that have expired -/
  expired : List Wait
  /-- the waits whose handlers will arm the timer again -/
  rearms : List Wait
  dead : Bool
  deriving DecidableEq, Repr

namespace Timing

/-- `timer_.cancel()`. -/
def cancel (x : Timing) : Timing := { x with waits := x.expired }

/-- `timer_.async_wait`. -/
def arm (x : Timing) (w : Wait) : Timing := { x with waits := x.waits ++ [w] }

end Timing

/-- What there is of the timer `tm`. -/
def State.timing (s : State) (tm : TimerId) : Timing where
  waits := s.ops.filterMap (·.live tm)
  expired := s.ops.filterMap (·.expired tm)
  rearms := s.stack.filterMap (Frame.rearm tm)
  dead := s.dead (.timer tm)

/-- The client connection whose response handler a completion handler calls. -/
def Handler.answers (s : State) (error : Option OpError) (moves : RequesterMoves) :
    Handler → Option ConnId
  | connect c => if error.isSome ∨ moves.accepts = false then some c else none
  | read c =>
    if error = none ∧ moves.response.isSome ∧ c ∈ s.inProgress then some c else none
  | oneShot _ (.cancelRequest c) | periodic _ _ (.cancelRequest c) =>
    if error = none ∧ (s.conns c).cancelSet ∧ c ∈ s.inProgress then some c else none
  | _ => none

/-- The client connection whose response handler is called by the delivery of the completion
number `i`. -/
def State.answered (s : State) (i : Nat) (moves : RequesterMoves) : Option ConnId :=
  match s.ops[i]? with
  | some ⟨h, .done error, _⟩ => h.answers s error moves
  | _ => none

/-- What a step asks of which timer: the calls of user code, those of `ClientService`, and that of
the `stopSignal()` of `waitFuture`. -/
def State.order (s : State) : Label → Option (TimerId × Order)
  | .command (.start t time callback) => some (t, .start time (.user callback))
  | .command (.startPeriodic t time callback) => some (t, .startPeriodic time (.user callback))
  | .command (.stop t) => some (t, .stop)
  | .command (.waitFuture t f checkPeriod) => some (t, .startPeriodic checkPeriod (.checkFuture f))
  | .command (.makeRequest _ _ _ timeout) =>
    some (s.timerCount, .start timeout (.cancelRequest s.connCount))
  | .deliver i moves => (s.answered i moves).map fun c => ((s.conns c).timer, .stop)
  | .resume _ =>
    match s.stack with
    | .afterFuture t :: _ => some (t, .stop)
    | _ => none
  | _ => none

/-- What a step asks of the timer `tm`. -/
def State.orderTo (s : State) (tm : TimerId) (l : Label) : Option Order :=
  (s.order l).bind fun p => if p.1 = tm then some p.2 else none

/-- The expired wait on the timer that a step delivers. -/
def State.fires (s : State) (tm : TimerId) : Label → Option Wait
  | .deliver i _ => s.ops[i]?.bind (·.expired tm)
  | _ => none

/-! ## How the functions of the runtime change a timer -/

namespace AsyncOp

variable {tm : TimerId} {op : AsyncOp} {p : Handler → Bool}

theorem wait_eq_none (h : op.handler.onTimer tm = false) : op.wait tm = none := by
  simp [wait, h]

theorem live_eq_none (h : op.handler.onTimer tm = false) : op.live tm = none := by
  simp [live, wait_eq_none h]

theorem expired_eq_none (h : op.handler.onTimer tm = false) : op.expired tm = none := by
  simp [expired, wait_eq_none h]

/-- An expired wait is one that was not aborted. -/
theorem live_of_expired {w : Wait} (h : op.expired tm = some w) : op.live tm = some w := by
  simp only [expired, Option.ite_none_right_eq_some] at h
  simp [live, h.1, h.2, OpStatus.failed]

/-- Only pending operations are aborted. -/
theorem expired_abort : (op.abort p).expired tm = op.expired tm := by
  unfold abort
  split
  next h => simp [expired, h.2]
  next => rfl

theorem live_abort_of_not (h : p op.handler = false) : (op.abort p).live tm = op.live tm := by
  rw [abort_of_not (by simp [h])]

/-- After a cancellation only the expired waits are left. -/
theorem live_abort (hp : ∀ h : Handler, h.onTimer tm = true → p h = true) :
    (op.abort p).live tm = op.expired tm := by
  obtain ⟨handler, status, delay⟩ := op
  by_cases hon : handler.onTimer tm
  · have hph := hp _ hon
    rcases status with _ | _ | e <;> simp [abort, live, expired, wait, hon, hph, OpStatus.failed]
  · have hoff : handler.onTimer tm = false := by simpa using hon
    rw [live_eq_none (by rw [abort_handler]; exact hoff), expired_eq_none hoff]

end AsyncOp

namespace State

variable {s t : State} {tm : TimerId}

/-- A timer's waits and their handlers are found in the operations and the call stack. -/
theorem timing_congr (hops : t.ops = s.ops) (hstack : t.stack = s.stack)
    (hdead : t.dead (.timer tm) = s.dead (.timer tm)) : t.timing tm = s.timing tm := by
  simp [timing, hops, hstack, hdead]

/-- The expired waits are among the waits. -/
theorem expired_sublist (s : State) (tm : TimerId) :
    (s.timing tm).expired.Sublist (s.timing tm).waits := by
  show (s.ops.filterMap (·.expired tm)).Sublist (s.ops.filterMap (·.live tm))
  induction s.ops with
  | nil => exact List.Sublist.slnil
  | cons op ops ih =>
    cases hexpired : op.expired tm with
    | some w =>
      rw [List.filterMap_cons_some hexpired,
        List.filterMap_cons_some (AsyncOp.live_of_expired hexpired)]
      exact ih.cons_cons w
    | none =>
      rw [List.filterMap_cons_none hexpired]
      cases hlive : op.live tm with
      | none => rwa [List.filterMap_cons_none hlive]
      | some w =>
        rw [List.filterMap_cons_some hlive]
        exact ih.cons w

/-- The operations are those of before, some aborted, and others that are not on the timer. -/
theorem timing_onSocket {c : ConnId} (h : OnSocket c s t) : t.timing tm = s.timing tm := by
  obtain ⟨p, new, hops, hp, hnew⟩ := h.ops
  have hoff : ∀ op ∈ new, op.handler.onTimer tm = false := by
    intro op hop
    have := hnew op hop
    cases hh : op.handler <;> simp_all [Handler.transfersOn, Handler.onTimer]
  have hlive : ∀ op : AsyncOp, (op.abort p).live tm = op.live tm := by
    intro op
    by_cases hop : p op.handler
    · have hconn := hp _ hop
      have hon : op.handler.onTimer tm = false := by
        cases hh : op.handler <;> simp_all [Handler.onConn, Handler.onTimer]
      rw [AsyncOp.live_eq_none hon, AsyncOp.live_eq_none (by rwa [AsyncOp.abort_handler])]
    · exact AsyncOp.live_abort_of_not (by simpa using hop)
  have hnewLive : new.filterMap (·.live tm) = [] :=
    List.filterMap_eq_nil_iff.mpr fun op hop => AsyncOp.live_eq_none (hoff op hop)
  have hnewExpired : new.filterMap (·.expired tm) = [] :=
    List.filterMap_eq_nil_iff.mpr fun op hop => AsyncOp.expired_eq_none (hoff op hop)
  ext1
  · simp [timing, hops, List.filterMap_map, hlive, hnewLive]
  · simp [timing, hops, List.filterMap_map, AsyncOp.expired_abort, hnewExpired]
  · simp [timing, h.stack]
  · simp [timing, h.dead]

theorem timing_queueLaunch (s : State) (maker q : Option RequestId) :
    (s.queueLaunch maker q).timing tm = s.timing tm := by
  have hlaunch : ((s.server.lock q).toList.map Frame.launch).filterMap (Frame.rearm tm) = [] := by
    rw [List.filterMap_eq_nil_iff]
    intro f hf
    obtain ⟨r, -, rfl⟩ := List.mem_map.mp hf
    rfl
  ext1
  · rfl
  · rfl
  · simp only [timing, queueLaunch_stack, List.filterMap_append, hlaunch, List.nil_append]
  · rfl

theorem timing_push (fs : List Frame) (hfs : ∀ f ∈ fs, f.rearm tm = none) :
    (s.push fs).timing tm = s.timing tm := by
  ext1
  · rfl
  · rfl
  · simp only [timing, push_stack, List.filterMap_append, List.filterMap_eq_nil_iff.mpr hfs,
      List.nil_append]
  · rfl

/-- A frame that arms no timer returns. -/
theorem timing_pop {f : Frame} {fs : List Frame} (hstack : s.stack = f :: fs)
    (hf : f.rearm tm = none) : { s with stack := fs }.timing tm = s.timing tm := by
  simp [timing, hstack, hf]

theorem timing_async (s : State) {h : Handler} (hh : h.onTimer tm = false) (delay : Milliseconds) :
    (s.async h delay).timing tm = s.timing tm := by
  simp [timing, AsyncOp.live, AsyncOp.expired, AsyncOp.wait, hh]

/-- The timer is armed. -/
theorem timing_arm (s : State) {h : Handler} (hh : h.onTimer tm = true) (delay : Milliseconds) :
    (s.async h delay).timing tm = (s.timing tm).arm (h, delay) := by
  simp [timing, Timing.arm, AsyncOp.live, AsyncOp.expired, AsyncOp.wait, hh, OpStatus.failed]

theorem timing_abort (s : State) {p : Handler → Bool}
    (hp : ∀ h : Handler, p h = true → h.onTimer tm = false) :
    (s.abort p).timing tm = s.timing tm := by
  have hlive : ∀ op : AsyncOp, (op.abort p).live tm = op.live tm := by
    intro op
    by_cases hop : p op.handler
    · have hoff := hp _ hop
      rw [AsyncOp.live_eq_none hoff, AsyncOp.live_eq_none (by rwa [AsyncOp.abort_handler])]
    · exact AsyncOp.live_abort_of_not (by simpa using hop)
  simp [timing, List.filterMap_map, hlive, AsyncOp.expired_abort]

/-- The operations on the timer, and maybe others, are aborted. -/
theorem timing_abort_all (s : State) {p : Handler → Bool}
    (hp : ∀ h : Handler, h.onTimer tm = true → p h = true) :
    (s.abort p).timing tm = (s.timing tm).cancel := by
  simp [timing, Timing.cancel, List.filterMap_map, AsyncOp.live_abort hp, AsyncOp.expired_abort]

theorem timing_cancel (s : State) (tm : TimerId) :
    (s.cancelTimer tm).timing tm = (s.timing tm).cancel := timing_abort_all s fun _ hh => hh

theorem timing_cancel_ne (s : State) {u : TimerId} (hu : u ≠ tm) :
    (s.cancelTimer u).timing tm = s.timing tm := by
  refine timing_abort s fun h hh => ?_
  cases h <;> simp_all [Handler.onTimer]

section Functions

variable {u : TimerId} {time : Milliseconds} {task : Task}

theorem timing_timerStart (s : State) (tm : TimerId) :
    (TimerService.start s tm time task).timing tm =
      (s.timing tm).cancel.arm (.oneShot tm task, time) := by
  have hcancel := timing_cancel (TimerService.stopQueue s tm) tm
  exact (timing_arm _ (by simp [Handler.onTimer]) time).trans (congrArg (Timing.arm · _) hcancel)

theorem timing_startPeriodic (s : State) (tm : TimerId) :
    (TimerService.startPeriodic s tm time task).timing tm =
      (s.timing tm).cancel.arm (.periodic tm time task, time) := by
  have hcancel := timing_cancel (TimerService.stopQueue s tm) tm
  exact (timing_arm _ (by simp [Handler.onTimer]) time).trans (congrArg (Timing.arm · _) hcancel)

theorem timing_timerStop (s : State) (tm : TimerId) :
    (TimerService.stop s tm).timing tm = (s.timing tm).cancel :=
  (timing_queueLaunch _ _ _).trans (timing_cancel (s.use (.timer tm)) tm)

/-! The functions of one timer leave the others alone. -/

theorem timing_timerStart_ne (s : State) (hu : u ≠ tm) :
    (TimerService.start s u time task).timing tm = s.timing tm :=
  (timing_async _ (by simpa [Handler.onTimer] using hu) time).trans
    (timing_cancel_ne (TimerService.stopQueue s u) hu)

theorem timing_startPeriodic_ne (s : State) (hu : u ≠ tm) :
    (TimerService.startPeriodic s u time task).timing tm = s.timing tm :=
  (timing_async _ (by simpa [Handler.onTimer] using hu) time).trans
    (timing_cancel_ne (TimerService.stopQueue s u) hu)

theorem timing_timerStop_ne (s : State) (hu : u ≠ tm) :
    (TimerService.stop s u).timing tm = s.timing tm :=
  (timing_queueLaunch _ _ _).trans (timing_cancel_ne (s.use (.timer u)) hu)

/-- The response handler of a request is called once its timeout timer is stopped. -/
theorem timing_onResponseReceived (s : State) {c : ConnId} (hc : (s.conns c).timer = tm)
    (response : Option ResponseData) :
    (ClientService.onResponseReceived s c response).timing tm = (s.timing tm).cancel := by
  refine (timing_push _ ?_).trans ?_
  · simp [Frame.rearm]
  · exact hc ▸ timing_timerStop s _

theorem timing_onResponseReceived_ne (s : State) {c : ConnId} (hc : (s.conns c).timer ≠ tm)
    (response : Option ResponseData) :
    (ClientService.onResponseReceived s c response).timing tm = s.timing tm := by
  refine (timing_push _ ?_).trans ?_
  · simp [Frame.rearm]
  · exact timing_timerStop_ne s hc

theorem timing_makeTimer (s : State) (maker : Option RequestId) :
    (Timer.make s maker).timing tm = s.timing tm := by
  cases maker with
  | none => rfl
  | some r =>
    by_cases hr : s.server.responseContext = some r
    · rw [Timer.make_current hr]
      rfl
    · rw [Timer.make_expired hr]

theorem timing_destroyContext (s : State) (p : PostId) :
    (TaskContext.destroy s p).timing tm = s.timing tm := by
  refine (timing_queueLaunch _ _ _).trans (timing_push (s := s.emit _) _ fun f hf => ?_)
  obtain ⟨_, -, rfl⟩ := List.mem_map.mp hf
  rfl

theorem timing_releaseHeld (s : State) (p : PostId) :
    (TaskContext.releaseHeld s p).timing tm = s.timing tm := by
  by_cases hlast : (s.contexts p).copies = 0
  · rw [TaskContext.releaseHeld_last hlast]
    exact timing_destroyContext (TaskContext.setContext s p _) p
  · rw [TaskContext.releaseHeld_shared hlast]
    rfl

theorem timing_release (s : State) (p : PostId) :
    (TaskContext.release s p).timing tm = s.timing tm := by
  by_cases hlast : (s.contexts p).copies ≤ 1 ∧ (s.contexts p).held = false
  · rw [TaskContext.release_last hlast]
    exact timing_destroyContext (TaskContext.setContext s p _) p
  · rw [TaskContext.release_shared hlast]
    rfl

/-- An exception takes frames off the call stack, and touches no wait. -/
theorem timing_unwind (tm : TimerId) (what : Option String) (catcher : Option Nat)
    (fs : List Frame) (s : State) :
    ((unwind what catcher fs s).timing tm).waits = (s.timing tm).waits ∧
      ((unwind what catcher fs s).timing tm).rearms.Sublist (fs.filterMap (Frame.rearm tm)) ∧
        ((unwind what catcher fs s).timing tm).dead = (s.timing tm).dead := by
  induction fs generalizing s with
  | nil => exact ⟨rfl, List.nil_sublist _, rfl⟩
  | cons f fs ih =>
    cases f
    case user code =>
      unfold unwind
      split
      · exact ⟨rfl, List.Sublist.refl _, rfl⟩
      · exact ih s
    case tryBlock r => exact ⟨rfl, List.Sublist.refl _, rfl⟩
    case postAction p => exact ⟨rfl, List.nil_sublist _, rfl⟩
    case taskHandler p =>
      unfold unwind
      split
      · rw [timing_releaseHeld]
        exact ⟨rfl, List.Sublist.refl _, rfl⟩
      · have hrest := ih (TaskContext.releaseHeld s p)
        rwa [timing_releaseHeld] at hrest
    case afterPeriodic t time task =>
      have hrest := ih s
      exact ⟨hrest.1, hrest.2.1.trans ((List.sublist_cons_self _ fs).filterMap _), hrest.2.2⟩
    all_goals exact ih s

/-- Objects other than the timer are destroyed. -/
theorem timing_destroy (s : State) {p : Object → Bool} (hp : p (.timer tm) = false)
    (closeErrors : List String) : (s.destroy p closeErrors).timing tm = s.timing tm := by
  have habort : (s.abort (·.isOn p)).timing tm = s.timing tm := by
    refine timing_abort s fun h hh => ?_
    cases h <;> simp_all [Handler.isOn, Handler.onTimer]
    all_goals
      rintro rfl
      simp_all
  have hwaits := congrArg Timing.waits habort
  have hexpired := congrArg Timing.expired habort
  refine Timing.ext hwaits hexpired rfl ?_
  simp [timing, hp]

/-- The timer is destroyed. -/
theorem timing_destroyed (s : State) {p : Object → Bool} (hp : p (.timer tm) = true)
    (closeErrors : List String) :
    (s.destroy p closeErrors).timing tm = { (s.timing tm).cancel with dead := true } := by
  have habort : (s.abort (·.isOn p)).timing tm = (s.timing tm).cancel := by
    refine timing_abort_all s fun h hh => ?_
    cases h <;> simp only [Handler.onTimer, beq_iff_eq, Bool.false_eq_true] at hh
    all_goals exact hh ▸ hp
  have hwaits := congrArg Timing.waits habort
  have hexpired := congrArg Timing.expired habort
  refine Timing.ext hwaits hexpired rfl ?_
  simp [timing, hp]

end Functions

end State

/-! ## Deliveries -/

/-- Taking out an element that is not among the images does not change them. -/
theorem filterMap_eraseIdx {α β : Type*} {f : α → Option β} {as : List α} {i : Nat} {a : α}
    (ha : as[i]? = some a) (hf : f a = none) :
    (as.eraseIdx i).filterMap f = as.filterMap f := by
  induction as generalizing i with
  | nil => cases ha
  | cons b as ih =>
    cases i with
    | zero =>
      obtain rfl := Option.some.inj ha
      rw [List.eraseIdx_cons_zero, List.filterMap_cons_none hf]
    | succ i =>
      rw [List.eraseIdx_cons_succ, List.filterMap_cons, List.filterMap_cons, ih ha]

/-- An element that is among the images is taken out. -/
theorem filterMap_eraseIdx_perm {α β : Type*} {f : α → Option β} {as : List α} {i : Nat} {a : α}
    {b : β} (ha : as[i]? = some a) (hf : f a = some b) :
    (b :: (as.eraseIdx i).filterMap f).Perm (as.filterMap f) := by
  obtain ⟨hlt, rfl⟩ := List.getElem?_eq_some_iff.mp ha
  have hperm := (List.getElem_cons_eraseIdx_perm hlt).filterMap f
  rwa [List.filterMap_cons_some hf] at hperm

/-- A wait that is delivered is one of the timer's waits. -/
theorem State.fires_mem {s : State} {tm : TimerId} {l : Label} {w : Wait}
    (hw : s.fires tm l = some w) : w ∈ (s.timing tm).waits := by
  apply (s.expired_sublist tm).subset
  cases l <;> simp only [State.fires, reduceCtorEq] at hw
  case deliver i moves =>
    obtain ⟨op, hop, hexpired⟩ := Option.bind_eq_some_iff.mp hw
    exact List.mem_filterMap.mpr ⟨op, List.mem_of_getElem? hop, hexpired⟩

/-- Completions are delivered by the event loop, with nothing on the call stack. -/
theorem State.step_deliver {s t : State} {i : Nat} {moves : RequesterMoves}
    (hstep : s.step (.deliver i moves) = some t) : s.stack = [] := by
  have hterm : ¬ s.terminated = true := by simp [State.step_terminated hstep]
  unfold State.step at hstep
  rw [if_neg hterm] at hstep
  dsimp only at hstep
  split at hstep
  next hstack _ => exact hstack
  next => cases hstep

namespace Delivers

variable {s t u : State} {tm : TimerId} {i : Nat} {moves : RequesterMoves} {h : Handler}
  {error : Option OpError}

/-- What the step is that calls the handler. -/
theorem handled (hd : Delivers s i h error u) (hstep : s.step (.deliver i moves) = some t) :
    t = u.handle error moves h := by
  obtain ⟨delay, hop⟩ := hd.op
  have hterm : ¬ s.terminated = true := by simp [State.step_terminated hstep]
  rw [hd.rest]
  unfold State.step at hstep
  rw [if_neg hterm] at hstep
  dsimp only at hstep
  split at hstep
  next k e d _ hop' =>
    obtain ⟨rfl, rfl, rfl⟩ : h = k ∧ error = e ∧ delay = d := by simpa [hop] using hop'
    exact (Option.some.inj hstep).symm
  next hno => exact absurd hop (hno _ _ _ hd.stack)

variable (tm) (moves)

/-- The order that a delivery gives is a stop of the timeout timer. -/
theorem orderTo_eq (hd : Delivers s i h error u) : s.orderTo tm (.deliver i moves) =
    (h.answers s error moves).bind fun c =>
      if (s.conns c).timer = tm then some .stop else none := by
  obtain ⟨delay, hop⟩ := hd.op
  simp only [State.orderTo, State.order, State.answered, hop, Option.bind_map]
  rfl

/-- The handler is not one of the timer's. -/
theorem timing_other (hd : Delivers s i h error u) (hh : h.onTimer tm = false) :
    u.timing tm = s.timing tm ∧ s.fires tm (.deliver i moves) = none := by
  obtain ⟨delay, hop⟩ := hd.op
  have hlive : (AsyncOp.mk h (.done error) delay).live tm = none := AsyncOp.live_eq_none hh
  have hexpired : (AsyncOp.mk h (.done error) delay).expired tm = none :=
    AsyncOp.expired_eq_none hh
  constructor
  · rw [hd.rest]
    simp [State.timing, filterMap_eraseIdx hop hlive, filterMap_eraseIdx hop hexpired]
  · simp [State.fires, hop, hexpired]

/-- The operation has failed. -/
theorem timing_failed {e : OpError} (hd : Delivers s i h (some e) u) :
    u.timing tm = s.timing tm ∧ s.fires tm (.deliver i moves) = none := by
  obtain ⟨delay, hop⟩ := hd.op
  have hlive : (AsyncOp.mk h (.done (some e)) delay).live tm = none := rfl
  have hexpired : (AsyncOp.mk h (.done (some e)) delay).expired tm = none := by
    simp [AsyncOp.expired]
  constructor
  · rw [hd.rest]
    simp [State.timing, filterMap_eraseIdx hop hlive, filterMap_eraseIdx hop hexpired]
  · simp [State.fires, hop, hexpired]

/-- A wait of the timer that has expired is delivered. -/
theorem timing_fires (hd : Delivers s i h none u) (hh : h.onTimer tm = true) :
    ∃ delay, s.fires tm (.deliver i moves) = some (h, delay) ∧
      ((h, delay) :: (u.timing tm).waits).Perm (s.timing tm).waits ∧
      ((h, delay) :: (u.timing tm).expired).Perm (s.timing tm).expired ∧
      (u.timing tm).dead = (s.timing tm).dead := by
  obtain ⟨delay, hop⟩ := hd.op
  have hexpired : (AsyncOp.mk h (.done none) delay).expired tm = some (h, delay) := by
    simp [AsyncOp.expired, AsyncOp.wait, hh]
  have hlive := AsyncOp.live_of_expired hexpired
  refine ⟨delay, by simp [State.fires, hop, hexpired], ?_, ?_, ?_⟩
  · rw [hd.rest]
    exact filterMap_eraseIdx_perm hop hlive
  · rw [hd.rest]
    exact filterMap_eraseIdx_perm hop hexpired
  · rw [hd.rest]
    rfl

end Delivers

end Asyncgi
