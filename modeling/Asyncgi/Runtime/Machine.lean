import Asyncgi.Runtime.Client
import Asyncgi.Runtime.Dispatcher
import Asyncgi.Transition.Run

/-!
# The event loop

The runtime as a labelled machine. With an empty call stack the event loop delivers a completion,
a request, or control to user code outside of asyncgi; user code on top of the stack issues
commands; and the environment finishes operations at any moment. What is taken from asio: no
completion handler runs inside the call that starts its operation.

What is taken from `RequestProcessorQueue`: `launch()` clears the pause, runs processors one
after another while it is not paused, and lets their exceptions through. How many processors
there are, and when the processing is finished, is left open.

## Main definitions

* `Command`, `State.command`: what user code can do
* `Label`, `State.step`, `runtime`: the machine
-/

namespace Asyncgi

/-- A `Client` made from a responder of the request, or the `n`-th one made from `IO`. -/
inductive ClientHandle
  | responder (r : RequestId)
  | io (n : Nat)
  deriving DecidableEq, Repr

def ClientHandle.service : ClientHandle → ClientRef
  | responder _ => .connection
  | io n => .io n

def ClientHandle.maker : ClientHandle → Option RequestId
  | responder r => some r
  | io _ => none

/-- The calls user code can make. -/
inductive Command
  | makeTimer (maker : Option RequestId)
  | start (t : TimerId) (time : Milliseconds) (callback : CallbackId)
  | startPeriodic (t : TimerId) (time : Milliseconds) (callback : CallbackId)
  | stop (t : TimerId)
  | waitFuture (t : TimerId) (f : FutureId) (checkPeriod : Milliseconds)
  | destroyTimer (t : TimerId)
  | makeClient
  | makeRequest (client : ClientHandle) (overload : Overload) (hasEndpoint : Bool)
      (timeout : Milliseconds)
  | disconnect (client : ClientHandle) (closeErrors : List String)
  | destroyClient (n : Nat) (closeErrors : List String)
  | postTask (maker : Option RequestId)
  | copyContext (p : PostId)
  | releaseContext (p : PostId)
  | send (r : RequestId) (answer : Answer)
  deriving DecidableEq, Repr

/-- The moves of the runtime. Operations are named by their position. -/
inductive Label
  /-- a request is delivered to the connection -/
  | processRequest (processor : RequestProcessor)
  /-- the connection is destroyed -/
  | destroyConnection (closeErrors : List String)
  /-- user code runs outside of asyncgi's callbacks -/
  | outside
  | deliver (i : Nat) (moves : RequesterMoves)
  /-- a posted closure is destroyed without being run -/
  | discard (i : Nat)
  /-- a user's copy of a context is destroyed by the event loop, with the handler it was in -/
  | release (p : PostId)
  /-- a pending operation gets its result -/
  | finish (i : Nat) (error : Option String)
  | futureReady (f : FutureId) (value : Nat)
  | command (c : Command)
  /-- user code returns; a processor may return its answer -/
  | ret (answer : Option Answer)
  /-- user code throws; the user code that is called from `catcher` frames may catch it -/
  | throw (what : Option String) (catcher : Option Nat := none)
  /-- a launch runs its next processor -/
  | runProcessor
  /-- the code of asyncgi on top of the stack goes on -/
  | resume (moves : RequesterMoves)
  deriving DecidableEq, Repr

namespace State

variable (s : State)

/-- The timer is one of user code's, and usable. -/
def userTimer (t : TimerId) : Bool :=
  t < s.timerCount && !s.dead (.timer t) &&
    match (s.timers t).owner with
    | .client _ => false
    | _ => true

/-- The client is usable. -/
def userClient : ClientHandle → Bool
  | .responder r => r < s.server.requests && !s.dead (.client .connection)
  | .io n => n < s.clients && !s.dead (.client (.io n))

/-- A responder of the request sends. -/
def send (r : RequestId) (answer : Answer) : State :=
  { s with server := Responder.send s.server r answer }

/-- A call of user code. -/
def command : Command → Option State
  | .makeTimer maker => some (Timer.make s maker)
  | .start t time callback =>
    if s.userTimer t then
      some ((TimerService.start s t time (.user callback)).emit
        [.started (s.timers t).maker (.oneShot t)])
    else none
  | .startPeriodic t time callback =>
    if s.userTimer t then
      some ((TimerService.startPeriodic s t time (.user callback)).emit
        [.started (s.timers t).maker (.periodic t)])
    else none
  | .stop t => if s.userTimer t then some (TimerService.stop s t) else none
  | .waitFuture t f checkPeriod =>
    if s.userTimer t then
      some ((TimerService.startPeriodic s t checkPeriod (.checkFuture f)).emit
        [.started (s.timers t).maker (.periodic t)])
    else none
  | .destroyTimer t =>
    if s.userTimer t ∧ (s.timers t).owner = .io then
      some (s.destroy (fun o => o == .timer t) [])
    else none
  | .makeClient => some { s with clients := s.clients + 1 }
  | .makeRequest client overload hasEndpoint timeout =>
    if s.userClient client then
      let s' := ClientService.makeRequest s client.service client.maker overload hasEndpoint timeout
      -- a call that throws starts no operation
      some (if hasEndpoint then s'.emit [.started client.maker (.client s.connCount)] else s')
    else none
  | .disconnect client closeErrors =>
    if s.userClient client then some (ClientService.disconnect s client.service closeErrors)
    else none
  | .destroyClient n closeErrors =>
    if s.userClient (.io n) then
      some (s.destroy (ClientService.members s (.io n)) closeErrors)
    else none
  | .postTask maker =>
    if maker.all fun r => r < s.server.requests && !s.dead .connection then
      some ((AsioDispatcherService.postTask s maker).emit [.started maker (.task s.postCount)])
    else none
  | .copyContext p =>
    if p < s.postCount ∧ ((s.contexts p).held ∨ 0 < (s.contexts p).copies) then
      some (TaskContext.copy s p)
    else none
  | .releaseContext p =>
    if p < s.postCount ∧ 0 < (s.contexts p).copies then some (TaskContext.release s p) else none
  | .send r answer => if r < s.server.requests then some (s.send r answer) else none

/-- The handler of a timer calls its task; `k` is the rest of the handler. -/
def runTask (t : TimerId) (k : Frame) : Task → State
  | .user callback =>
    (s.emit [.callback t callback]).push [.user (.timerCallback t callback), k]
  | .cancelRequest c => ClientConnection.cancelOnTimeout ((s.emit [.timeout c]).push [k]) c
  | .checkFuture f =>
    let s := s.emit [.futureQueried f]
    match s.futures f with
    | .pending => s.push [k]
    | .ready value =>
      ({ s with futures := Function.update s.futures f .consumed }.emit [.futureGot f value]).push
        [.user (.futureCallback f value), .afterFuture t, k]
    | .consumed => ((s.emit [.futureError f]).push [k]).throw (some "No associated state")

/-- The event loop calls a completion handler. -/
def handle (error : Option OpError) (moves : RequesterMoves) : Handler → State
  | .oneShot t task => if error.isSome then s else s.runTask t (.afterOneShot t) task
  | .periodic t time task =>
    if error.isSome then s else s.runTask t (.afterPeriodic t time task) task
  | .connect c => ClientConnection.onConnected s c error moves
  | .read c => ClientConnection.onRead s c error moves
  | .write c size => ClientConnection.onWritten s c size error moves
  | .postedTask p => s.push [.user (.task p), .taskHandler p]

/-- The code on top of the stack, where it is asyncgi's, goes on. -/
def resume (moves : RequesterMoves) : List Frame → Option State
  | [] | .user _ :: _ => none
  | .launch _ :: fs | .tryBlock _ :: fs | .postAction _ :: fs => some { s with stack := fs }
  | .afterOneShot t :: fs =>
    some (TimerService.stop ({ s with stack := fs }.emit [.returned (.oneShot t)]) t)
  | .afterPeriodic t time task :: fs =>
    some (TimerService.startPeriodic { s with stack := fs } t time task)
  | .afterFuture t :: fs => some (TimerService.stop { s with stack := fs } t)
  | .afterResponse c :: fs => some (ClientService.afterResponse { s with stack := fs } c)
  | .afterReceive c :: fs =>
    let s := { s with stack := fs }.use (.conn c)
    some (ClientConnection.processReading (ClientConnection.runRequester s c moves) c)
  | .taskHandler p :: fs => some (TaskContext.releaseHeld { s with stack := fs } p)
  | .rethrow what :: fs => some (unwind what none fs { s with stack := fs })

/-- The connection's services, their members, and its timers. -/
def connectionMembers : Object → Bool
  | .connection => true
  | .timer t => t < s.timerCount && (s.timers t).owner == .connection ||
      ClientService.members s .connection (.timer t)
  | o => ClientService.members s .connection o

/-- The frame of user code on top of the stack returns. A processor's answer is sent through its
responder. -/
def returns (code : UserCode) (fs : List Frame) (answer : Option Answer) : State :=
  let s := { s with stack := fs }
  match code, answer with
  | .processor r, some a | .requestProcessor r, some a => s.send r a
  | _, _ => s

/-- One move of the runtime. -/
def step (s : State) (l : Label) : Option State :=
  if s.terminated then none else
  match l with
  | .processRequest processor =>
    if s.stack = [] ∧ s.dead .connection = false then
      some (Connection.processRequest s processor)
    else none
  | .destroyConnection closeErrors =>
    if s.stack = [] ∧ s.dead .connection = false then
      some { s.destroy s.connectionMembers closeErrors with server := s.server.destroy }
    else none
  | .outside => if s.stack = [] then some (s.push [.user .outside]) else none
  | .deliver i moves =>
    match s.stack, s.ops[i]? with
    | [], some ⟨h, .done error, _⟩ => some (handle { s with ops := s.ops.eraseIdx i } error moves h)
    | _, _ => none
  | .discard i =>
    match s.stack, s.ops[i]? with
    | [], some ⟨.postedTask p, _, _⟩ =>
      some (TaskContext.releaseHeld { s with ops := s.ops.eraseIdx i } p)
    | _, _ => none
  | .release p =>
    if s.stack = [] ∧ p < s.postCount ∧ 0 < (s.contexts p).copies then
      some (TaskContext.release s p)
    else none
  | .finish i error =>
    match s.ops[i]? with
    | some ⟨h, .pending, delay⟩ =>
      -- the only error of a wait is that it is aborted
      if h.isWait ∧ error.isSome then none
      else some { s with ops := s.ops.set i ⟨h, .done (error.map .other), delay⟩ }
    | _ => none
  | .futureReady f value =>
    if s.futures f = .pending then
      some { s with futures := Function.update s.futures f (.ready value) }
    else none
  | .command c =>
    match s.stack with
    | .user _ :: _ => s.command c
    | _ => none
  | .ret answer =>
    match s.stack with
    | .user code :: fs => some (s.returns code fs answer)
    | _ => none
  | .throw what catcher =>
    match s.stack with
    | .user code :: fs => some (unwind what catcher fs (s.emit [.threw code what]))
    | _ => none
  | .runProcessor =>
    match s.stack with
    | .launch q :: _ =>
      if s.paused q then none else some ((s.emit [.processor q]).push [.user (.processor q)])
    | _ => none
  | .resume moves => s.resume moves s.stack

end State

/-- The runtime, from a connection that has been made and has received no request. -/
def runtime : Machine State Label where
  init := {}
  step := State.step

/-- The first route processor of a request starts a timer; it expires, its callback returns, and the
queue is launched again. -/
def timerRun : List Label :=
  [.processRequest .router, .runProcessor, .command (.makeTimer (some 0)),
    .command (.start 0 10 1), .ret none, .resume {}, .resume {}, .finish 0 none, .deliver 0 {},
    .ret none, .resume {}]

end Asyncgi
