import Asyncgi.Runtime.Registry

/-!
# A client request as FastCGI and as HTTP

The overloads of `ClientService::makeRequest` for a `fastcgi::Request` and for an `http::Request`
differ in what the user's handler is given. Here a state in which a request was made through the
first is turned into the one in which it was made through the second; the runtime does not notice
the difference.

## Main definitions

* `Response.toHttp`: a response, as a handler passes it on with `http::responseFromString`
* `State.toHttp c`: the state in which the request `c` was made with an `http::Request`

## Main results

* `run_toHttp`: the runs from the two states are the same, up to what the handler of `c` is given
-/

namespace Asyncgi

/-- The overload of the same transport that takes an `http::Request`. -/
def Overload.toHttp : Overload → Overload
  | localFastcgi | localHttp => localHttp
  | tcpFastcgi | tcpHttp => tcpHttp

/-- A response, as `http::responseFromString(data, http::ResponseMode::Cgi)` reads it. -/
def Response.toHttp : Response → Response
  | fastcgi data _ | http data => http data

/-- A call of the response handler of `c`, as one of a handler that takes the response as http. -/
def Event.toHttp (c : ConnId) : Event → Event
  | responseHandler d response =>
    responseHandler d (if d = c then response.map Response.toHttp else response)
  | e => e

/-- The connection of `c`, made by the overload that takes an `http::Request`. -/
def ClientConnection.toHttp (c d : ConnId) (conn : ClientConnection) : ClientConnection :=
  { conn with overload := if d = c then conn.overload.toHttp else conn.overload }

/-- The state in which the request `c` was made with an `http::Request`. -/
def State.toHttp (c : ConnId) (s : State) : State :=
  { s with
    conns := fun d => (s.conns d).toHttp c d
    trace := s.trace.map (Event.toHttp c) }

@[simp] theorem Overload.toHttp_isLocal (overload : Overload) :
    overload.toHttp.isLocal = overload.isLocal := by
  cases overload <;> rfl

theorem Overload.toHttp_responseOf (overload : Overload) (response : ResponseData) :
    overload.toHttp.responseOf response = (overload.responseOf response).toHttp := by
  cases overload <;> rfl

theorem ClientConnection.toHttp_isLocal (conn : ClientConnection) (c d : ConnId) :
    (conn.toHttp c d).overload.isLocal = conn.overload.isLocal := by
  unfold toHttp
  split <;> simp

variable {c : ConnId}

/-! ## The elementary updates -/

namespace State

variable (s : State)

theorem toHttp_emit (es : List Event) :
    (s.emit es).toHttp c = (s.toHttp c).emit (es.map (Event.toHttp c)) := by
  simp [toHttp, emit]

theorem toHttp_push (fs : List Frame) : (s.push fs).toHttp c = (s.toHttp c).push fs := rfl

theorem toHttp_queueStop (maker q : Option RequestId) :
    (s.queueStop maker q).toHttp c = (s.toHttp c).queueStop maker q := by
  cases q <;> simp [toHttp, queueStop, Event.toHttp]

theorem toHttp_queueLaunch (maker q : Option RequestId) :
    (s.queueLaunch maker q).toHttp c = (s.toHttp c).queueLaunch maker q := by
  cases q <;> simp [toHttp, queueLaunch, Event.toHttp]

theorem toHttp_update (conns : ConnId → ClientConnection) (d : ConnId) (conn : ClientConnection) :
    (fun e => (Function.update conns d conn e).toHttp c e) =
      Function.update (fun e => (conns e).toHttp c e) d (conn.toHttp c d) := by
  funext e
  by_cases he : e = d
  · subst he
    rw [Function.update_self, Function.update_self]
  · rw [Function.update_of_ne he, Function.update_of_ne he]

/-- An update of a connection that neither reads nor writes its overload. -/
theorem toHttp_setConn (d : ConnId) {f : ClientConnection → ClientConnection}
    (hf : ∀ conn, f (conn.toHttp c d) = (f conn).toHttp c d) :
    (s.setConn d f).toHttp c = (s.toHttp c).setConn d f := by
  simp only [toHttp, setConn, toHttp_update, hf]

theorem toHttp_beginRequest (d : ConnId) :
    (s.beginRequest d).toHttp c = (s.toHttp c).beginRequest d := by
  have hset := s.toHttp_setConn (c := c) d (f := fun conn => { conn with cancelSet := true })
    fun _ => rfl
  exact congrArg (fun u : State => { u with inProgress := s.inProgress ++ [d] }) hset

end State

/-! ## Timers, tasks and responders -/

section Services

variable (s : State)

theorem Timer.toHttp_make (maker : Option RequestId) :
    (Timer.make s maker).toHttp c = Timer.make (s.toHttp c) maker := by
  cases maker with
  | none => rfl
  | some r => exact apply_ite _ _ _ _

namespace TimerService

variable (t : TimerId) (time : Milliseconds) (task : Task)

theorem toHttp_stopQueue : (stopQueue s t).toHttp c = stopQueue (s.toHttp c) t :=
  State.toHttp_queueStop (s.use (.timer t)) _ _

theorem toHttp_start : (start s t time task).toHttp c = start (s.toHttp c) t time task :=
  congrArg (fun u : State => (u.cancelTimer t).async (.oneShot t task) time) (toHttp_stopQueue s t)

theorem toHttp_startPeriodic :
    (startPeriodic s t time task).toHttp c = startPeriodic (s.toHttp c) t time task :=
  congrArg (fun u : State => (u.cancelTimer t).async (.periodic t time task) time)
    (toHttp_stopQueue s t)

theorem toHttp_stop : (stop s t).toHttp c = stop (s.toHttp c) t := by
  unfold stop
  rw [State.toHttp_queueLaunch, State.toHttp_emit]
  rfl

end TimerService

namespace TaskContext

variable (p : PostId)

theorem toHttp_destroy : (destroy s p).toHttp c = destroy (s.toHttp c) p := by
  unfold destroy
  rw [State.toHttp_queueLaunch]
  congr 1
  exact congrArg (State.push · _) (s.toHttp_emit _)

theorem toHttp_releaseHeld : (releaseHeld s p).toHttp c = releaseHeld (s.toHttp c) p := by
  unfold releaseHeld
  rw [apply_ite (State.toHttp c), toHttp_destroy]
  rfl

theorem toHttp_release : (release s p).toHttp c = release (s.toHttp c) p := by
  unfold release
  rw [apply_ite (State.toHttp c), toHttp_destroy]
  rfl

end TaskContext

theorem AsioDispatcherService.toHttp_postTask (maker : Option RequestId) :
    (postTask s maker).toHttp c = postTask (s.toHttp c) maker := by
  exact congrArg (fun u : State => ({ u with
      contexts := Function.update s.contexts s.postCount
        { maker := maker, queueObserver := maker.bind fun _ => s.dispatcherQueue, held := true }
      postCount := s.postCount + 1
      ops := s.ops ++ [{ handler := .postedTask s.postCount, status := .done none }] } : State))
    (s.toHttp_queueStop maker _)

theorem Connection.toHttp_processRequest (processor : RequestProcessor) :
    (processRequest s processor).toHttp c = processRequest (s.toHttp c) processor := by
  cases processor with
  | function => rfl
  | router =>
    simp only [processRequest, Router.process]
    exact congrArg (State.push · _) (State.toHttp_emit _ _)

theorem State.toHttp_unwind (what : Option String) (catcher : Option Nat) (fs : List Frame) :
    (unwind what catcher fs s).toHttp c = unwind what catcher fs (s.toHttp c) := by
  induction fs generalizing s with
  | nil => exact congrArg (fun u : State => { u with stack := [] }) (s.toHttp_emit [.escaped])
  | cons f fs ih =>
    cases f
    case user code =>
      simp only [unwind]
      rw [apply_ite (State.toHttp c), ih]
      rfl
    case tryBlock => rfl
    case postAction =>
      exact congrArg (fun u : State => { u with stack := [], terminated := true })
        (s.toHttp_emit [.terminated])
    case taskHandler p =>
      simp only [unwind]
      rw [apply_ite (State.toHttp c), ih, TaskContext.toHttp_releaseHeld,
        TaskContext.toHttp_releaseHeld]
      rfl
    all_goals exact ih s

theorem State.toHttp_returns (code : UserCode) (fs : List Frame) (answer : Option Answer) :
    (s.returns code fs answer).toHttp c = (s.toHttp c).returns code fs answer := by
  cases code <;> cases answer <;> rfl

end Services

/-! ## Client connections -/

namespace ClientConnection

variable (s : State) (d : ConnId)

theorem toHttp_close (closeError : Option String) :
    (close s d closeError).toHttp c = close (s.toHttp c) d closeError := by
  have hset := s.toHttp_setConn (c := c) d
    (f := fun conn => { conn with isOpen := false, out := conn.out.onClose }) fun _ => rfl
  exact congrArg (fun u : State => (u.abort (·.onConn d)).reportClose closeError) hset

theorem toHttp_perform (closeError : Option String) (r : WriteState × SocketCall) :
    (perform s d closeError r).toHttp c = perform (s.toHttp c) d closeError r := by
  have hset := s.toHttp_setConn (c := c) d (f := fun conn => { conn with out := r.1 }) fun _ => rfl
  obtain ⟨w, call⟩ := r
  cases call with
  | none => exact hset
  | asyncWrite => exact congrArg (fun u : State => u.async (.write d w.writeBuffer.length) 0) hset
  | close =>
    simp only [perform]
    rw [toHttp_close, hset]

theorem toHttp_sendData (data : Bytes) :
    (sendData s d data).toHttp c = sendData (s.toHttp c) d data :=
  toHttp_perform (s.use (.conn d)) d none _

theorem toHttp_onBytesWritten (n : Nat) (closeError : Option String) :
    (onBytesWritten s d n closeError).toHttp c = onBytesWritten (s.toHttp c) d n closeError :=
  toHttp_perform (s.use (.conn d)) d closeError _

theorem toHttp_disconnect (closeError : Option String) :
    (disconnect s d closeError).toHttp c = disconnect (s.toHttp c) d closeError :=
  toHttp_perform (s.use (.conn d)) d closeError _

theorem toHttp_processReading : (processReading s d).toHttp c = processReading (s.toHttp c) d :=
  apply_ite _ _ _ _

theorem toHttp_makeRequest : (makeRequest s d).toHttp c = makeRequest (s.toHttp c) d := by
  have hset := (s.use (.conn d)).toHttp_setConn (c := c) d
    (f := fun conn => { conn with isOpen := true }) fun _ => rfl
  exact congrArg (State.async · (.connect d) 0) hset

theorem toHttp_runRequester (moves : RequesterMoves) :
    (runRequester s d moves).toHttp c = runRequester (s.toHttp c) d moves := by
  have hsends : ∀ (sends : List Bytes) (s : State),
      (sends.foldl (fun s data => sendData s d data) s).toHttp c =
        sends.foldl (fun s data => sendData s d data) (s.toHttp c) := by
    intro sends
    induction sends with
    | nil => exact fun _ => rfl
    | cons data sends ih =>
      intro s
      rw [List.foldl_cons, List.foldl_cons, ih, toHttp_sendData]
  simp only [runRequester]
  rw [apply_ite (State.toHttp c), toHttp_disconnect, hsends]

end ClientConnection

/-! ## Client services -/

namespace ClientService

variable (s : State) (d : ConnId)

/-- The handler of `c` is given the response as http; the other handlers, what they were given. -/
theorem toHttp_onResponseReceived (response : Option ResponseData) :
    (onResponseReceived s d response).toHttp c = onResponseReceived (s.toHttp c) d response := by
  have hevent : Event.toHttp c (.responseHandler d (response.map (s.conns d).overload.responseOf)) =
      .responseHandler d (response.map ((s.toHttp c).conns d).overload.responseOf) := by
    simp only [Event.toHttp, State.toHttp, ClientConnection.toHttp]
    split
    · rw [Option.map_map]
      congr 2
      funext r
      exact ((s.conns d).overload.toHttp_responseOf r).symm
    · rfl
  have hstop := TimerService.toHttp_stop (c := c) s (s.conns d).timer
  have hemit := State.toHttp_emit (c := c) (reportErrorMsg (TimerService.stop s (s.conns d).timer)
    (s.conns d).service (response.elim "" (·.errorMsg)))
    [.responseHandler d (response.map (s.conns d).overload.responseOf)]
  rw [List.map_singleton, hevent] at hemit
  refine congrArg (State.push · _) (hemit.trans ?_)
  exact congrArg (fun u : State => (reportErrorMsg u _ _).emit _) hstop

theorem toHttp_afterResponse : (afterResponse s d).toHttp c = afterResponse (s.toHttp c) d := by
  unfold afterResponse
  rw [State.toHttp_queueLaunch]
  congr 1
  exact State.toHttp_emit (s.use (.client (s.conns d).service)) _

theorem toHttp_localConnections (k : ClientRef) :
    localConnections (s.toHttp c) k = localConnections s k := by
  funext o
  cases o with
  | conn d =>
    exact congrArg (d < s.connCount && (s.conns d).service == k && ·)
      ((s.conns d).toHttp_isLocal c d)
  | connection | client | timer => rfl

theorem toHttp_disconnect (k : ClientRef) (closeErrors : List String) :
    (disconnect s k closeErrors).toHttp c = disconnect (s.toHttp c) k closeErrors := by
  unfold disconnect
  rw [toHttp_localConnections]
  rfl

theorem toHttp_members (k : ClientRef) : members (s.toHttp c) k = members s k := by
  funext o
  cases o <;> rfl

/-- The overload with which the request `c` is made, where the next request is `c`. -/
theorem toHttp_prepareRequest (k : ClientRef) (maker : Option RequestId) (overload : Overload)
    (timeout : Milliseconds) :
    (prepareRequest s k maker overload timeout).toHttp c = prepareRequest (s.toHttp c) k maker
      (if s.connCount = c then overload.toHttp else overload) timeout := by
  have hadd : ∀ (u : State) (conn : ClientConnection),
      State.toHttp c { u with
          conns := Function.update s.conns s.connCount conn
          connCount := s.connCount + 1 } =
        { u.toHttp c with
          conns := Function.update (s.toHttp c).conns s.connCount (conn.toHttp c s.connCount)
          connCount := s.connCount + 1 } := by
    intro u conn
    simp only [State.toHttp, State.toHttp_update]
  have hstop := (s.use (.client k)).toHttp_queueStop (c := c) maker (k.queue s.clientQueue)
  refine (hadd _ _).trans ?_
  rw [TimerService.toHttp_start, show ∀ u : State, (u.emplaceTimer { owner := .client k }).toHttp c
    = (u.toHttp c).emplaceTimer { owner := .client k } from fun _ => rfl, hstop]
  rfl

theorem toHttp_makeRequest (k : ClientRef) (maker : Option RequestId) (overload : Overload)
    (hasEndpoint : Bool) (timeout : Milliseconds) :
    (makeRequest s k maker overload hasEndpoint timeout).toHttp c =
      makeRequest (s.toHttp c) k maker (if s.connCount = c then overload.toHttp else overload)
        hasEndpoint timeout := by
  simp only [makeRequest]
  rw [apply_ite (State.toHttp c), ClientConnection.toHttp_makeRequest, toHttp_prepareRequest]
  rfl

end ClientService

namespace ClientConnection

variable (s : State) (d : ConnId) (error : Option OpError) (moves : RequesterMoves)

theorem toHttp_onConnected :
    (onConnected s d error moves).toHttp c = onConnected (s.toHttp c) d error moves := by
  cases error with
  | some _ => exact ClientService.toHttp_onResponseReceived s d none
  | none =>
    simp only [onConnected]
    rw [apply_ite (State.toHttp c), State.toHttp_beginRequest,
      ClientService.toHttp_onResponseReceived, toHttp_runRequester, toHttp_processReading]

theorem toHttp_onRead : (onRead s d error moves).toHttp c = onRead (s.toHttp c) d error moves := by
  cases error with
  | some e => cases e <;> rfl
  | none =>
    have hrun := congrArg (State.push · [.afterReceive d])
      (toHttp_runRequester (c := c) (s.use (.conn d)) d moves)
    simp only [onRead]
    rw [show (s.toHttp c).use (.conn d) = (s.use (.conn d)).toHttp c from rfl,
      ← toHttp_runRequester]
    split
    · rw [apply_ite (State.toHttp c), ClientService.toHttp_onResponseReceived]
      rfl
    · rfl

theorem toHttp_onWritten (size : Nat) :
    (onWritten s d size error moves).toHttp c = onWritten (s.toHttp c) d size error moves := by
  cases error with
  | some e => rfl
  | none => exact toHttp_onBytesWritten s d size moves.closeError

theorem toHttp_cancelOnTimeout :
    (cancelOnTimeout s d).toHttp c = cancelOnTimeout (s.toHttp c) d := by
  unfold cancelOnTimeout
  rw [apply_ite (State.toHttp c), ClientService.toHttp_onResponseReceived]
  rfl

end ClientConnection

/-! ## The runtime -/

namespace State

variable (s : State)

theorem toHttp_runTask (t : TimerId) (k : Frame) (task : Task) :
    (s.runTask t k task).toHttp c = (s.toHttp c).runTask t k task := by
  cases task with
  | user callback =>
    simp only [runTask]
    rw [toHttp_push, toHttp_emit]
    rfl
  | cancelRequest d =>
    simp only [runTask]
    rw [ClientConnection.toHttp_cancelOnTimeout, toHttp_push, toHttp_emit]
    rfl
  | checkFuture f =>
    have hquery : (s.emit [.futureQueried f]).toHttp c = (s.toHttp c).emit [.futureQueried f] :=
      s.toHttp_emit _
    simp only [runTask]
    rw [← hquery]
    generalize s.emit [.futureQueried f] = u
    rw [show (u.toHttp c).futures = u.futures from rfl]
    split
    · rfl
    · rw [toHttp_push, toHttp_emit]
      rfl
    · rw [throw, toHttp_unwind, toHttp_push, toHttp_emit]
      rfl

theorem toHttp_handle (error : Option OpError) (moves : RequesterMoves) (h : Handler) :
    (s.handle error moves h).toHttp c = (s.toHttp c).handle error moves h := by
  cases h with
  | oneShot t task =>
    simp only [handle]
    rw [apply_ite (toHttp c), toHttp_runTask]
  | periodic t time task =>
    simp only [handle]
    rw [apply_ite (toHttp c), toHttp_runTask]
  | connect d => exact ClientConnection.toHttp_onConnected s d error moves
  | read d => exact ClientConnection.toHttp_onRead s d error moves
  | write d size => exact ClientConnection.toHttp_onWritten s d error moves size
  | postedTask p => rfl

theorem toHttp_resume (moves : RequesterMoves) (fs : List Frame) :
    (s.toHttp c).resume moves fs = (s.resume moves fs).map (toHttp c) := by
  cases fs with
  | nil => rfl
  | cons f fs =>
    cases f with
    | user code => rfl
    | launch q | tryBlock r | postAction p => rfl
    | afterOneShot t =>
      refine congrArg some ?_
      rw [TimerService.toHttp_stop, toHttp_emit]
      rfl
    | afterPeriodic t time task =>
      have hstart := TimerService.toHttp_startPeriodic (c := c) { s with stack := fs } t time task
      exact congrArg some hstart.symm
    | afterFuture t => exact congrArg some (TimerService.toHttp_stop { s with stack := fs } t).symm
    | afterResponse d =>
      exact congrArg some (ClientService.toHttp_afterResponse { s with stack := fs } d).symm
    | afterReceive d =>
      refine congrArg some ?_
      rw [ClientConnection.toHttp_processReading, ClientConnection.toHttp_runRequester]
      rfl
    | taskHandler p =>
      exact congrArg some (TaskContext.toHttp_releaseHeld { s with stack := fs } p).symm
    | rethrow what => exact congrArg some (toHttp_unwind { s with stack := fs } what none fs).symm

/-- A move with a condition that does not depend on the requests. -/
theorem toHttp_guard (p : Prop) [Decidable p] (u : State) :
    (if p then some u else none).map (toHttp c) = if p then some (u.toHttp c) else none := by
  rw [apply_ite (Option.map (toHttp c))]
  rfl

/-- A call of user code, where the request `c` has been made. -/
theorem toHttp_command (hc : c < s.connCount) (a : Command) :
    (s.toHttp c).command a = (s.command a).map (toHttp c) := by
  cases a with
  | makeTimer maker => exact congrArg some (Timer.toHttp_make s maker).symm
  | makeClient => rfl
  | start t time callback =>
    simp only [command]
    rw [toHttp_guard, toHttp_emit, TimerService.toHttp_start]
    rfl
  | startPeriodic t time callback | waitFuture t f checkPeriod =>
    simp only [command]
    rw [toHttp_guard, toHttp_emit, TimerService.toHttp_startPeriodic]
    rfl
  | stop t =>
    simp only [command]
    rw [toHttp_guard, TimerService.toHttp_stop]
    rfl
  | makeRequest client overload hasEndpoint timeout =>
    have hmake := ClientService.toHttp_makeRequest s client.service client.maker overload
      hasEndpoint timeout (c := c)
    rw [if_neg (Nat.ne_of_gt hc)] at hmake
    simp only [command]
    rw [toHttp_guard, apply_ite (toHttp c), toHttp_emit, hmake]
    rfl
  | disconnect client closeErrors =>
    simp only [command]
    rw [toHttp_guard, ClientService.toHttp_disconnect]
    rfl
  | destroyClient n closeErrors =>
    simp only [command]
    rw [toHttp_guard, ClientService.toHttp_members]
    rfl
  | postTask maker =>
    simp only [command]
    rw [toHttp_guard, toHttp_emit, AsioDispatcherService.toHttp_postTask]
    rfl
  | releaseContext p =>
    simp only [command]
    rw [toHttp_guard, TaskContext.toHttp_release]
    rfl
  | destroyTimer | copyContext | send =>
    simp only [command]
    rw [toHttp_guard]
    rfl

theorem toHttp_connectionMembers : (s.toHttp c).connectionMembers = s.connectionMembers := by
  funext o
  cases o <;> rfl

/-- A move of the runtime, where the request `c` has been made. -/
theorem toHttp_step (hc : c < s.connCount) (l : Label) :
    (s.toHttp c).step l = (s.step l).map (toHttp c) := by
  unfold step
  rw [show (s.toHttp c).terminated = s.terminated from rfl]
  by_cases hterminated : s.terminated
  · rw [if_pos hterminated, if_pos hterminated]
    rfl
  rw [if_neg hterminated, if_neg hterminated]
  cases l with
  | processRequest processor =>
    simp only
    rw [toHttp_guard, Connection.toHttp_processRequest]
    rfl
  | destroyConnection closeErrors =>
    simp only
    rw [toHttp_guard, toHttp_connectionMembers]
    rfl
  | release p =>
    simp only
    rw [toHttp_guard, TaskContext.toHttp_release]
    rfl
  | outside | futureReady =>
    simp only
    rw [toHttp_guard]
    rfl
  | deliver i moves =>
    simp only [show (s.toHttp c).stack = s.stack from rfl, show (s.toHttp c).ops = s.ops from rfl]
    split
    · exact congrArg some (toHttp_handle { s with ops := s.ops.eraseIdx i } _ _ _).symm
    · rfl
  | discard i =>
    simp only [show (s.toHttp c).stack = s.stack from rfl, show (s.toHttp c).ops = s.ops from rfl]
    split
    · exact congrArg some
        (TaskContext.toHttp_releaseHeld { s with ops := s.ops.eraseIdx i } _).symm
    · rfl
  | finish i error =>
    simp only [show (s.toHttp c).ops = s.ops from rfl]
    split
    · rw [apply_ite (Option.map (toHttp c))]
      rfl
    · rfl
  | command a =>
    simp only [show (s.toHttp c).stack = s.stack from rfl]
    split
    · exact s.toHttp_command hc a
    · rfl
  | ret answer =>
    simp only [show (s.toHttp c).stack = s.stack from rfl]
    split
    · exact congrArg some (s.toHttp_returns _ _ _).symm
    · rfl
  | throw what catcher =>
    simp only [show (s.toHttp c).stack = s.stack from rfl]
    split
    · rw [Option.map_some, toHttp_unwind, toHttp_emit]
      rfl
    · rfl
  | runProcessor =>
    simp only [show (s.toHttp c).stack = s.stack from rfl,
      show (s.toHttp c).paused = s.paused from rfl]
    split
    · rw [apply_ite (Option.map (toHttp c)), Option.map_some, toHttp_push, toHttp_emit]
      rfl
    · rfl
  | resume moves => exact s.toHttp_resume moves s.stack

end State

/-- **The runtime does not tell the two forms of a request apart.** -/
theorem run_toHttp {c : ConnId} {s : State} (hc : c < s.connCount) (l : List Label) :
    runtime.run (s.toHttp c) l = (runtime.run s l).map (State.toHttp c) := by
  induction l generalizing s with
  | nil => rfl
  | cons a l ih =>
    have hstep : runtime.step (s.toHttp c) a = (runtime.step s a).map (State.toHttp c) :=
      s.toHttp_step hc a
    rw [Machine.run_cons, Machine.run_cons, hstep, Option.map_bind, Option.bind_map]
    cases ht : runtime.step s a with
    | none => rfl
    | some t => exact ih (Nat.lt_of_lt_of_le hc (Step.of_step ht).connCount_le)

end Asyncgi
