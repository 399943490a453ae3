import Asyncgi.Runtime.Machine
import Asyncgi.Runtime.Socket

/-!
# The steps of the runtime, case by case

What a step can do, said once: a relation with a case for each branch of `State.step`. The
invariants of the runtime are proved by cases on it.

## Main definitions

* `Step s l t`, with `CommandStep` for the calls of user code

## Main results

* `Step.of_step`: every step of the runtime is one of these cases
-/

namespace Asyncgi

/-- The handler waits on the timer `t` for `task`, and `k` is what the handler does after it. -/
inductive WaitsFor (t : TimerId) (task : Task) : Handler → Frame → Prop
  | oneShot : WaitsFor t task (.oneShot t task) (.afterOneShot t)
  | periodic (time : Milliseconds) :
      WaitsFor t task (.periodic t time task) (.afterPeriodic t time task)

/-- The event loop takes the completion number `i`, of the handler `h` and with the result `error`;
`u` is the state its handler runs from. -/
structure Delivers (s : State) (i : Nat) (h : Handler) (error : Option OpError) (u : State) :
    Prop where
  stack : s.stack = []
  op : ∃ delay, s.ops[i]? = some ⟨h, .done error, delay⟩
  rest : u = { s with ops := s.ops.eraseIdx i }

namespace Delivers

variable {s u : State} {i : Nat} {h : Handler} {error : Option OpError}

theorem stack_eq (hd : Delivers s i h error u) : u.stack = [] := by
  rw [hd.rest]
  exact hd.stack

theorem server_eq (hd : Delivers s i h error u) : u.server = s.server := by
  rw [hd.rest]

theorem trace_eq (hd : Delivers s i h error u) : u.trace = s.trace := by
  rw [hd.rest]

/-- The handler is taken out of those that asio holds. -/
theorem handlers_perm (hd : Delivers s i h error u) : (h :: u.handlers).Perm s.handlers := by
  obtain ⟨delay, hop⟩ := hd.op
  rw [hd.rest]
  exact State.handlers_eraseIdx hop

end Delivers

/-- The objects that a step destroys. -/
def State.destroys (s : State) : Label → Object → Bool
  | .destroyConnection _ => s.connectionMembers
  | .command (.destroyTimer t) => fun o => o == .timer t
  | .command (.disconnect client _) => ClientService.localConnections s client.service
  | .command (.destroyClient n _) => ClientService.members s (.io n)
  | _ => fun _ => false

/-- Frames with nothing left to do. -/
def Frame.isDone : Frame → Bool
  | launch _ | tryBlock _ | postAction _ => true
  | _ => false

/-- The calls of user code. -/
inductive CommandStep (s : State) : Command → State → Prop
  | makeTimer {maker} : CommandStep s (.makeTimer maker) (Timer.make s maker)
  | start {t time callback} (ht : s.userTimer t) :
      CommandStep s (.start t time callback)
        ((TimerService.start s t time (.user callback)).emit
          [.started (s.timers t).maker (.oneShot t)])
  | startPeriodic {t time callback} (ht : s.userTimer t) :
      CommandStep s (.startPeriodic t time callback)
        ((TimerService.startPeriodic s t time (.user callback)).emit
          [.started (s.timers t).maker (.periodic t)])
  | stop {t} (ht : s.userTimer t) : CommandStep s (.stop t) (TimerService.stop s t)
  | waitFuture {t f checkPeriod} (ht : s.userTimer t) :
      CommandStep s (.waitFuture t f checkPeriod)
        ((TimerService.startPeriodic s t checkPeriod (.checkFuture f)).emit
          [.started (s.timers t).maker (.periodic t)])
  | destroyTimer {t} (ht : s.userTimer t) (hio : (s.timers t).owner = .io) :
      CommandStep s (.destroyTimer t) (s.destroy (fun o => o == .timer t) [])
  | makeClient : CommandStep s .makeClient { s with clients := s.clients + 1 }
  | makeRequest {client overload timeout} (hc : s.userClient client) :
      CommandStep s (.makeRequest client overload true timeout)
        ((ClientService.makeRequest s client.service client.maker overload true timeout).emit
          [.started client.maker (.client s.connCount)])
  | makeRequestThrows {client overload timeout} (hc : s.userClient client) :
      CommandStep s (.makeRequest client overload false timeout)
        (ClientService.makeRequest s client.service client.maker overload false timeout)
  | disconnect {client closeErrors} (hc : s.userClient client) :
      CommandStep s (.disconnect client closeErrors)
        (ClientService.disconnect s client.service closeErrors)
  | destroyClient {n closeErrors} (hc : s.userClient (.io n)) :
      CommandStep s (.destroyClient n closeErrors)
        (s.destroy (ClientService.members s (.io n)) closeErrors)
  | postTask {maker : Option RequestId}
      (hm : ∀ r, maker = some r → r < s.server.requests ∧ s.dead .connection = false) :
      CommandStep s (.postTask maker)
        ((AsioDispatcherService.postTask s maker).emit [.started maker (.task s.postCount)])
  | copyContext {p} (hp : p < s.postCount)
      (hlive : (s.contexts p).held ∨ 0 < (s.contexts p).copies) :
      CommandStep s (.copyContext p) (TaskContext.copy s p)
  | releaseContext {p} (hp : p < s.postCount) (hlive : 0 < (s.contexts p).copies) :
      CommandStep s (.releaseContext p) (TaskContext.release s p)
  | send {r answer} (hr : r < s.server.requests) : CommandStep s (.send r answer) (s.send r answer)

/-- The steps of the runtime. -/
inductive Step (s : State) : Label → State → Prop
  | processRequest {processor} (hstack : s.stack = []) (halive : s.dead .connection = false) :
      Step s (.processRequest processor) (Connection.processRequest s processor)
  | destroyConnection {closeErrors} (hstack : s.stack = []) (halive : s.dead .connection = false) :
      Step s (.destroyConnection closeErrors)
        { s.destroy s.connectionMembers closeErrors with server := s.server.destroy }
  | outside (hstack : s.stack = []) : Step s .outside (s.push [.user .outside])
  /-- the error branches that only return -/
  | ignored {i moves h e u} (hd : Delivers s i h (some e) u)
      (hh : h.isWait ∨ e = .aborted ∧ ∃ c, h = .read c) : Step s (.deliver i moves) u
  | callback {i moves h t callback k u} (hd : Delivers s i h none u)
      (hk : WaitsFor t (.user callback) h k) :
      Step s (.deliver i moves)
        ((u.emit [.callback t callback]).push [.user (.timerCallback t callback), k])
  /-- the timeout of a request that is not to be cancelled -/
  | timeout {i moves h t c k u} (hd : Delivers s i h none u)
      (hk : WaitsFor t (.cancelRequest c) h k)
      (hc : ¬ ((u.conns c).cancelSet ∧ c ∈ u.inProgress)) :
      Step s (.deliver i moves) ((u.emit [.timeout c]).push [k])
  | timedOut {i moves h t c k u} (hd : Delivers s i h none u)
      (hk : WaitsFor t (.cancelRequest c) h k) (hset : (u.conns c).cancelSet)
      (hc : c ∈ u.inProgress) :
      Step s (.deliver i moves)
        (ClientService.onResponseReceived (((u.emit [.timeout c]).push [k]).endRequest c) c none)
  | futurePending {i moves h t f k u} (hd : Delivers s i h none u)
      (hk : WaitsFor t (.checkFuture f) h k) (hf : u.futures f = .pending) :
      Step s (.deliver i moves) ((u.emit [.futureQueried f]).push [k])
  | futureReady {i moves h t f k u value} (hd : Delivers s i h none u)
      (hk : WaitsFor t (.checkFuture f) h k) (hf : u.futures f = .ready value) :
      Step s (.deliver i moves)
        (({ u.emit [.futureQueried f] with
            futures := Function.update u.futures f .consumed }.emit [.futureGot f value]).push
          [.user (.futureCallback f value), .afterFuture t, k])
  | futureConsumed {i moves h t f k u} (hd : Delivers s i h none u)
      (hk : WaitsFor t (.checkFuture f) h k) (hf : u.futures f = .consumed) :
      Step s (.deliver i moves) (u.emit [.futureQueried f, .futureError f, .escaped])
  | notConnected {i moves c e u} (hd : Delivers s i (.connect c) (some e) u) :
      Step s (.deliver i moves) (ClientService.onResponseReceived u c none)
  | connected {i moves c u v} (hd : Delivers s i (.connect c) none u) (hv : OnSocket c u v) :
      Step s (.deliver i moves) (v.beginRequest c)
  | refused {i moves c u v} (hd : Delivers s i (.connect c) none u) (hv : OnSocket c u v) :
      Step s (.deliver i moves) (ClientService.onResponseReceived v c none)
  /-- the end of a write, and the error of a read that is not aborted -/
  | transferred {i moves h c error u v} (hd : Delivers s i h error u) (hh : h.transfersOn c)
      (herror : error = some .aborted → ∃ n, h = .write c n) (hv : OnSocket c u v) :
      Step s (.deliver i moves) v
  | received {i moves c u v} (hd : Delivers s i (.read c) none u) (hv : OnSocket c u v) :
      Step s (.deliver i moves) (v.push [.afterReceive c])
  | answered {i moves c response u v} (hd : Delivers s i (.read c) none u) (hv : OnSocket c u v)
      (hc : c ∈ v.inProgress) :
      Step s (.deliver i moves)
        (ClientService.onResponseReceived ((v.push [.afterReceive c]).endRequest c) c
          (some response))
  | task {i moves p error u} (hd : Delivers s i (.postedTask p) error u) :
      Step s (.deliver i moves) (u.push [.user (.task p), .taskHandler p])
  | discard {i p op} (hstack : s.stack = []) (hop : s.ops[i]? = some op)
      (hp : op.handler = .postedTask p) :
      Step s (.discard i) (TaskContext.releaseHeld { s with ops := s.ops.eraseIdx i } p)
  | release {p} (hstack : s.stack = []) (hp : p < s.postCount)
      (hlive : 0 < (s.contexts p).copies) : Step s (.release p) (TaskContext.release s p)
  | finish {i h delay error} (hop : s.ops[i]? = some ⟨h, .pending, delay⟩)
      (hwait : h.isWait → error = none) :
      Step s (.finish i error) { s with ops := s.ops.set i ⟨h, .done (error.map .other), delay⟩ }
  | futureMadeReady {f value} (hf : s.futures f = .pending) :
      Step s (.futureReady f value)
        { s with futures := Function.update s.futures f (.ready value) }
  | command {c t code fs} (hstack : s.stack = .user code :: fs) (hc : CommandStep s c t) :
      Step s (.command c) t
  | ret {answer code fs} (hstack : s.stack = .user code :: fs) :
      Step s (.ret answer) (s.returns code fs answer)
  | throw {what catcher code fs} (hstack : s.stack = .user code :: fs) :
      Step s (.throw what catcher) (State.unwind what catcher fs (s.emit [.threw code what]))
  | runProcessor {q fs} (hstack : s.stack = .launch q :: fs) (hq : s.paused q = false) :
      Step s .runProcessor ((s.emit [.processor q]).push [.user (.processor q)])
  | done {moves f fs} (hstack : s.stack = f :: fs) (hf : f.isDone) :
      Step s (.resume moves) { s with stack := fs }
  | oneShotDone {moves t fs} (hstack : s.stack = .afterOneShot t :: fs) :
      Step s (.resume moves)
        (TimerService.stop ({ s with stack := fs }.emit [.returned (.oneShot t)]) t)
  | tickDone {moves t time task fs} (hstack : s.stack = .afterPeriodic t time task :: fs) :
      Step s (.resume moves) (TimerService.startPeriodic { s with stack := fs } t time task)
  | futureDone {moves t fs} (hstack : s.stack = .afterFuture t :: fs) :
      Step s (.resume moves) (TimerService.stop { s with stack := fs } t)
  | responseDone {moves c fs} (hstack : s.stack = .afterResponse c :: fs) :
      Step s (.resume moves) (ClientService.afterResponse { s with stack := fs } c)
  | receiveDone {moves c fs v} (hstack : s.stack = .afterReceive c :: fs)
      (hv : OnSocket c { s with stack := fs } v) : Step s (.resume moves) v
  | taskDone {moves p fs} (hstack : s.stack = .taskHandler p :: fs) :
      Step s (.resume moves) (TaskContext.releaseHeld { s with stack := fs } p)
  | rethrown {moves what fs} (hstack : s.stack = .rethrow what :: fs) :
      Step s (.resume moves) (State.unwind what none fs { s with stack := fs })

namespace Step

variable {s t : State} {l : Label}

theorem of_command {c : Command} (h : s.command c = some t) : CommandStep s c t := by
  cases c <;> simp only [State.command, Option.ite_none_right_eq_some, Option.some.injEq] at h
  case makeTimer => exact h ▸ .makeTimer
  case start => exact h.2 ▸ .start h.1
  case startPeriodic => exact h.2 ▸ .startPeriodic h.1
  case stop => exact h.2 ▸ .stop h.1
  case waitFuture => exact h.2 ▸ .waitFuture h.1
  case destroyTimer => exact h.2 ▸ .destroyTimer h.1.1 h.1.2
  case makeClient => exact h ▸ .makeClient
  case makeRequest client overload hasEndpoint timeout =>
    obtain ⟨hc, rfl⟩ := h
    cases hasEndpoint with
    | true => exact .makeRequest hc
    | false => exact .makeRequestThrows hc
  case disconnect => exact h.2 ▸ .disconnect h.1
  case destroyClient => exact h.2 ▸ .destroyClient h.1
  case postTask maker =>
    obtain ⟨hm, rfl⟩ := h
    refine .postTask fun r hr => ?_
    subst hr
    simpa using hm
  case copyContext => exact h.2 ▸ .copyContext h.1.1 h.1.2
  case releaseContext => exact h.2 ▸ .releaseContext h.1.1 h.1.2
  case send => exact h.2 ▸ .send h.1

/-- A handler runs on an empty stack, so nothing catches what its task throws. -/
theorem throw_from_handler {h : Handler} {tm : TimerId} {task : Task} {k : Frame} {u : State}
    (hk : WaitsFor tm task h k) (hstack : u.stack = []) {a b : Event} {what : Option String} :
    (((u.emit [a]).emit [b]).push [k]).throw what = u.emit [a, b, .escaped] := by
  obtain ⟨⟩ := u
  obtain rfl : _ = [] := hstack
  cases hk <;> simp [State.throw, State.unwind, State.emit, State.push]

theorem of_runTask {i : Nat} {moves : RequesterMoves} {h : Handler} {tm : TimerId} {task : Task}
    {k : Frame} {u : State} (hd : Delivers s i h none u) (hk : WaitsFor tm task h k) :
    Step s (.deliver i moves) (u.runTask tm k task) := by
  cases task with
  | user callback => exact .callback hd hk
  | cancelRequest c =>
    simp only [State.runTask, ClientConnection.cancelOnTimeout, State.push_conns,
      State.emit_conns, State.push_inProgress, State.emit_inProgress]
    split
    next hc => exact .timedOut hd hk hc.1 hc.2
    next hc => exact .timeout hd hk hc
  | checkFuture f =>
    unfold State.runTask
    cases hf : u.futures f with
    | pending =>
      simp only [State.emit_futures, hf]
      exact .futurePending hd hk hf
    | ready value =>
      simp only [State.emit_futures, hf]
      exact .futureReady hd hk hf
    | consumed =>
      have hstack : u.stack = [] := by rw [hd.rest]; exact hd.stack
      simp only [State.emit_futures, hf]
      rw [throw_from_handler hk hstack]
      exact .futureConsumed hd hk hf

theorem of_handle {i : Nat} {moves : RequesterMoves} {h : Handler} {error : Option OpError}
    {u : State} (hd : Delivers s i h error u) :
    Step s (.deliver i moves) (u.handle error moves h) := by
  cases h with
  | oneShot tm task =>
    cases error with
    | none => exact of_runTask hd .oneShot
    | some e => exact .ignored hd (Or.inl rfl)
  | periodic tm time task =>
    cases error with
    | none => exact of_runTask hd (.periodic time)
    | some e => exact .ignored hd (Or.inl rfl)
  | connect c =>
    cases error with
    | none =>
      have hv := (ClientConnection.onSocket_processReading u c).trans
        (ClientConnection.onSocket_runRequester _ c moves)
      simp only [State.handle, ClientConnection.onConnected]
      split
      · exact .connected hd hv
      · exact .refused hd hv
    | some e => exact .notConnected hd
  | read c =>
    cases error with
    | none =>
      have hv := (OnSocket.use c u).trans (ClientConnection.onSocket_runRequester _ c moves)
      simp only [State.handle, ClientConnection.onRead]
      split
      next r _ =>
        split
        next hc => exact .answered hd hv hc
        next => exact .received hd hv
      next => exact .received hd hv
    | some e =>
      cases e with
      | aborted => exact .ignored hd (Or.inr ⟨rfl, c, rfl⟩)
      | other msg =>
        exact .transferred hd (by simp [Handler.transfersOn]) nofun
          ((OnSocket.use c u).trans (OnSocket.report c _ _ _))
  | write c n =>
    refine .transferred (c := c) hd (by simp [Handler.transfersOn]) (fun _ => ⟨n, rfl⟩) ?_
    cases error with
    | none => exact ClientConnection.onSocket_onBytesWritten u c n moves.closeError
    | some e => exact (OnSocket.use c u).trans (OnSocket.report c _ _ _)
  | postedTask p => exact .task hd

theorem of_resume {moves : RequesterMoves} (h : s.resume moves s.stack = some t) :
    Step s (.resume moves) t := by
  rcases hstack : s.stack with _ | ⟨f, fs⟩
  · simp [hstack, State.resume] at h
  rw [hstack] at h
  cases f <;> simp only [State.resume, Option.some.injEq, reduceCtorEq] at h <;> subst h
  case launch | tryBlock | postAction => exact .done hstack rfl
  case afterOneShot => exact .oneShotDone hstack
  case afterPeriodic => exact .tickDone hstack
  case afterFuture => exact .futureDone hstack
  case afterResponse => exact .responseDone hstack
  case afterReceive c =>
    exact .receiveDone hstack (((OnSocket.use c _).trans
      (ClientConnection.onSocket_runRequester _ c moves)).trans
        (ClientConnection.onSocket_processReading _ c))
  case taskHandler => exact .taskDone hstack
  case rethrow => exact .rethrown hstack

/-- **Inversion of the step function.** -/
theorem of_step (h : s.step l = some t) : Step s l t := by
  unfold State.step at h
  split at h
  · cases h
  cases l with
  | processRequest processor =>
    obtain ⟨⟨hstack, halive⟩, rfl⟩ := Option.ite_some_none_eq_some.mp h
    exact .processRequest hstack halive
  | destroyConnection closeErrors =>
    obtain ⟨⟨hstack, halive⟩, rfl⟩ := Option.ite_some_none_eq_some.mp h
    exact .destroyConnection hstack halive
  | outside =>
    obtain ⟨hstack, rfl⟩ := Option.ite_some_none_eq_some.mp h
    exact .outside hstack
  | deliver i moves =>
    dsimp only at h
    split at h
    next k error delay hstack hop =>
      obtain rfl := Option.some.inj h
      exact of_handle ⟨hstack, ⟨delay, hop⟩, rfl⟩
    next => cases h
  | discard i =>
    dsimp only at h
    split at h
    next p _ _ hstack hop =>
      obtain rfl := Option.some.inj h
      exact .discard hstack hop rfl
    next => cases h
  | release p =>
    obtain ⟨⟨hstack, hp, hlive⟩, rfl⟩ := Option.ite_some_none_eq_some.mp h
    exact .release hstack hp hlive
  | finish i error =>
    dsimp only at h
    split at h
    next k delay hop =>
      split at h
      · cases h
      next hwait =>
        obtain rfl := Option.some.inj h
        refine .finish hop fun hk => ?_
        simpa [hk] using hwait
    next => cases h
  | futureReady f value =>
    obtain ⟨hf, rfl⟩ := Option.ite_some_none_eq_some.mp h
    exact .futureMadeReady hf
  | command c =>
    dsimp only at h
    split at h
    next code fs hstack => exact .command hstack (of_command h)
    next => cases h
  | ret answer =>
    dsimp only at h
    split at h
    next code fs hstack =>
      obtain rfl := Option.some.inj h
      exact .ret hstack
    next => cases h
  | throw what catcher =>
    dsimp only at h
    split at h
    next code fs hstack =>
      obtain rfl := Option.some.inj h
      exact .throw hstack
    next => cases h
  | runProcessor =>
    dsimp only at h
    split at h
    next q fs hstack =>
      split at h
      · cases h
      next hq =>
        obtain rfl := Option.some.inj h
        exact .runProcessor hstack (by simpa using hq)
    next => cases h
  | resume moves => exact of_resume h

end Step

theorem State.step_terminated {s t : State} {l : Label} (h : s.step l = some t) :
    s.terminated = false := by
  unfold State.step at h
  split at h
  · cases h
  next hs => simpa using hs

end Asyncgi
