import Mathlib.Logic.Function.Basic
import Mathlib.Tactic.Simps.Basic
import Asyncgi.Output.WriteState

/-!
# The state of the runtime

One server `Connection` with the requests delivered to it, the timers, clients and posted tasks
that user code starts through their `Responder`s or from `IO`, the asynchronous operations asio
holds for them, and the call stack of the thread that runs the event loop. Requests, timers,
client connections, posted tasks and futures are numbered in the order of their creation.

User code is not modelled: while a frame of it is on top of the stack it may issue any command,
return or throw.

## Main definitions

* `Frame`: user code that runs, and the code of asyncgi that a call to user code returns to
* `Handler`, `AsyncOp`: the completion handlers, and the operations that hold them
* `Event`: what is observed of the queues, the operations and the callbacks
* `State` and its elementary updates
-/

namespace Asyncgi

/-- The requests delivered to the connection; each has its own `RequestProcessorQueue`. -/
abbrev RequestId := Nat
abbrev TimerId := Nat
abbrev ConnId := Nat
abbrev PostId := Nat
abbrev FutureId := Nat
/-- A callback supplied by user code. -/
abbrev CallbackId := Nat
/-- `std::chrono::milliseconds`. -/
abbrev Milliseconds := Int

/-! ## Objects -/

/-- The client services: the connection's `client_`, and those of the `Client`s made from `IO`. -/
inductive ClientRef
  | connection
  | io (n : Nat)
  deriving DecidableEq, Repr

/-- What a `TimerService` is a part of. -/
inductive TimerOwner
  /-- the connection's `timerProvider_` -/
  | connection
  /-- the `timerProvider_` of a `ClientService` -/
  | client (k : ClientRef)
  /-- a `Timer` made from `IO` -/
  | io
  deriving DecidableEq, Repr

/-- The objects that handlers refer to. -/
inductive Object
  | connection
  | client (k : ClientRef)
  | conn (c : ConnId)
  | timer (t : TimerId)
  deriving DecidableEq, Repr

/-- `TimerService`. The `maker` is the request through whose `Responder` the timer was made. -/
structure TimerService where
  owner : TimerOwner := .io
  maker : Option RequestId := none
  requestProcessorQueue : Option RequestId := none
  deriving DecidableEq, Repr

/-- The four overloads of `ClientService::makeRequest`. -/
inductive Overload
  | localFastcgi
  | localHttp
  | tcpFastcgi
  | tcpHttp
  deriving DecidableEq, Repr

/-- The connection is added to `localClientConnections_`. -/
def Overload.isLocal : Overload → Bool
  | localFastcgi | localHttp => true
  | tcpFastcgi | tcpHttp => false

/-- The response handler takes an `http::ResponseView`. -/
def Overload.isHttp : Overload → Bool
  | localFastcgi | tcpFastcgi => false
  | localHttp | tcpHttp => true

/-- `ClientConnection`, with what the closures made for its request capture. -/
structure ClientConnection where
  service : ClientRef := .connection
  maker : Option RequestId := none
  overload : Overload := .localFastcgi
  /-- `responseTimeoutTimer` -/
  timer : TimerId := 0
  /-- `*cancelRequestOnTimeout` calls `cancelRequest`; before it is the empty lambda. -/
  cancelSet : Bool := false
  isOpen : Bool := false
  out : WriteState := {}
  deriving DecidableEq, Repr

/-- `fcgi::ResponseData`. -/
structure ResponseData where
  data : Bytes
  errorMsg : String
  deriving DecidableEq, Repr

/-- What a user's response handler is given with a response. -/
inductive Response
  /-- `fastcgi::Response` -/
  | fastcgi (data : Bytes) (errorMsg : String)
  /-- `http::responseFromString(data, http::ResponseMode::Cgi)` -/
  | http (data : Bytes)
  deriving DecidableEq, Repr

/-- `TaskContext::PostAction`. A copy of the context is `held` by the posted closure until the
closure is destroyed; `copies` are the user's own. -/
structure PostAction where
  maker : Option RequestId := none
  queueObserver : Option RequestId := none
  held : Bool := false
  copies : Nat := 0
  deriving DecidableEq, Repr

/-- A `std::future` moved into `Timer::waitFuture`. -/
inductive Future
  | pending
  | ready (value : Nat)
  /-- after `get()` -/
  | consumed
  deriving DecidableEq, Repr

/-- What is given to `fcgi::Response::send`. -/
inductive Answer
  | response (data errorMsg : String)
  /-- `http::ResponseStatus::_500_Internal_Server_Error` -/
  | internalServerError
  deriving DecidableEq, Repr

/-- A call of `fcgi::Response::send`: the response's request, and the request of the `Responder`
it was made through. -/
structure Sent where
  request : RequestId
  through : RequestId
  answer : Answer
  deriving DecidableEq, Repr

/-! ## Control -/

/-- The callback of a timer. -/
inductive Task
  | user (callback : CallbackId)
  /-- the lambda of `ClientService::makeRequest` that calls `*cancelRequestOnTimeout` -/
  | cancelRequest (c : ConnId)
  /-- the `timerCallback` of `Timer::waitFuture` -/
  | checkFuture (f : FutureId)
  deriving DecidableEq, Repr

/-- Completion handlers. -/
inductive Handler
  | oneShot (t : TimerId) (task : Task)
  | periodic (t : TimerId) (time : Milliseconds) (task : Task)
  | connect (c : ConnId)
  | read (c : ConnId)
  | write (c : ConnId) (size : Nat)
  | postedTask (p : PostId)
  deriving DecidableEq, Repr

/-- The handler of a wait on a timer. -/
def Handler.isWait : Handler → Bool
  | oneShot _ _ | periodic _ _ _ => true
  | _ => false

/-- The handler of a wait on the timer `t`. -/
def Handler.onTimer (t : TimerId) : Handler → Bool
  | oneShot u _ | periodic u _ _ => u == t
  | _ => false

/-- The handler of an operation on a timer or a socket of the objects. -/
def Handler.isOn (p : Object → Bool) : Handler → Bool
  | oneShot t _ | periodic t _ _ => p (.timer t)
  | connect c | read c | write c _ => p (.conn c)
  | postedTask _ => false

/-- The handler of an operation on the client connection's socket. -/
def Handler.onConn (c : ConnId) : Handler → Bool
  | connect d | read d | write d _ => d == c
  | _ => false

/-- Error codes. -/
inductive OpError
  | aborted
  | other (msg : String)
  deriving DecidableEq, Repr

/-- `error.message()`. -/
def OpError.message : OpError → String
  | aborted => "Operation aborted."
  | other msg => msg

/-- Whether an operation is still pending, or is queued for delivery with its result. -/
inductive OpStatus
  | pending
  | done (error : Option OpError)
  deriving DecidableEq, Repr

/-- An asynchronous operation asio holds. -/
structure AsyncOp where
  handler : Handler
  status : OpStatus := .pending
  /-- the delay of a timer's wait -/
  delay : Milliseconds := 0
  deriving DecidableEq, Repr

/-- The operation aborted, where its handler is as given and it is still pending. An operation that
has a result keeps it. -/
def AsyncOp.abort (p : Handler → Bool) (op : AsyncOp) : AsyncOp :=
  if p op.handler ∧ op.status = .pending then { op with status := .done (some .aborted) } else op

/-- User code. -/
inductive UserCode
  /-- code not called by asyncgi -/
  | outside
  /-- a `RequestProcessor` that is not a `Router` -/
  | requestProcessor (r : RequestId)
  /-- a route processor -/
  | processor (r : RequestId)
  | timerCallback (t : TimerId) (callback : CallbackId)
  | futureCallback (f : FutureId) (value : Nat)
  | responseHandler (c : ConnId)
  | task (p : PostId)
  deriving DecidableEq, Repr

/-- The call stack's entries: user code, and code of asyncgi that waits for a call to return. -/
inductive Frame
  | user (code : UserCode)
  /-- `RequestProcessorQueue::launch` -/
  | launch (q : RequestId)
  /-- the try block of `Connection::processRequest` -/
  | tryBlock (r : RequestId)
  /-- the handler of `TimerService::start` after `task()` -/
  | afterOneShot (t : TimerId)
  /-- the handler of `TimerService::startPeriodic` after `task()` -/
  | afterPeriodic (t : TimerId) (time : Milliseconds) (task : Task)
  /-- the `timerCallback` of `Timer::waitFuture` after `func(fut.get())` -/
  | afterFuture (t : TimerId)
  /-- `onResponseReceived` after `responseHandler(…)` -/
  | afterResponse (c : ConnId)
  /-- `ClientConnection::readData`, inside `fcgi::Requester::receiveData` -/
  | afterReceive (c : ConnId)
  /-- the handler posted by `AsioDispatcherService::postTask` after `task(taskContext)` -/
  | taskHandler (p : PostId)
  /-- `TaskContext::PostAction::~PostAction` -/
  | postAction (p : PostId)
  /-- an exception, with its `what()`, that goes on once the destructors above it are done -/
  | rethrow (what : Option String)
  deriving DecidableEq, Repr

/-- The operations of a request that its queue waits for. -/
inductive Operation
  | client (c : ConnId)
  | oneShot (t : TimerId)
  | periodic (t : TimerId)
  | task (p : PostId)
  deriving DecidableEq, Repr

/-- What is observed of queues, operations, callbacks and exceptions. The `maker` of an operation
is the request through whose `Responder` it is started. -/
inductive Event
  | queueStop (maker : Option RequestId) (q : RequestId) (alive : Bool)
  | queueLaunch (maker : Option RequestId) (q : RequestId) (alive : Bool)
  /-- `Router`'s own `launch()` -/
  | initialLaunch (q : RequestId)
  | processor (q : RequestId)
  | started (maker : Option RequestId) (op : Operation)
  /-- the completion callback of an operation has returned -/
  | returned (op : Operation)
  | timerStopped (t : TimerId)
  | contextDestroyed (p : PostId)
  | callback (t : TimerId) (callback : CallbackId)
  /-- the callback of a request's timeout timer runs -/
  | timeout (c : ConnId)
  | responseHandler (c : ConnId) (response : Option Response)
  | futureQueried (f : FutureId)
  | futureGot (f : FutureId) (value : Nat)
  /-- a use of a future after `get()` -/
  | futureError (f : FutureId)
  | threw (code : UserCode) (what : Option String)
  /-- an exception leaves the handler that the event loop runs -/
  | escaped
  /-- an exception leaves a destructor -/
  | terminated
  deriving DecidableEq, Repr

/-! ## The state -/

/-- What the connection keeps of its requests. -/
structure Server where
  /-- The number of requests delivered to the connection. -/
  requests : RequestId := 0
  /-- The request of `responseContext_`. -/
  responseContext : Option RequestId := none
  /-- The request whose `fcgi::Response` is in `responseSender_`. -/
  responseSender : Option RequestId := none
  /-- `fcgi::Response::isValid` -/
  isValid : RequestId → Bool := fun _ => false
  /-- The calls of `Responder::send`: the responder's request, and what is sent. -/
  calls : List (RequestId × Answer) := []
  /-- The calls of `fcgi::Response::send`. -/
  answers : List Sent := []

namespace Server

variable (v : Server)

/-- The queue of the request exists: its owner, the request's `ResponseContext`, does. -/
def queueAlive (q : RequestId) : Bool := v.responseContext == some q

/-- The queue behind a reference, where it still exists. -/
def lock (q : Option RequestId) : Option RequestId := q.filter v.queueAlive

/-- The queues' flags after a call on the queue behind the reference. -/
def setPaused (flags : RequestId → Bool) (q : Option RequestId) (paused : Bool) :
    RequestId → Bool :=
  fun r => if v.lock q = some r then paused else flags r

variable {v}

theorem queueAlive_iff {q : RequestId} : v.queueAlive q = true ↔ v.responseContext = some q := by
  simp [queueAlive]

@[simp] theorem lock_none : v.lock none = none := rfl

theorem lock_eq_some {q : Option RequestId} {r : RequestId} :
    v.lock q = some r ↔ q = some r ∧ v.responseContext = some r := by
  rw [lock, Option.filter_eq_some_iff, queueAlive_iff]

@[simp] theorem lock_lock (q : Option RequestId) : v.lock (v.lock q) = v.lock q := by
  simp [lock, Option.filter_filter]

@[simp] theorem setPaused_none (flags : RequestId → Bool) (paused : Bool) :
    v.setPaused flags none paused = flags := rfl

end Server

/-- The state of the runtime. -/
structure State where
  server : Server := {}
  /-- Whether the last call on the queue was `stop()`. -/
  paused : RequestId → Bool := fun _ => false
  /-- `requestProcessorQueue_` of `timerProvider_`, `client_` and `asioDispatcher_`. -/
  providerQueue : Option RequestId := none
  clientQueue : Option RequestId := none
  dispatcherQueue : Option RequestId := none
  timers : TimerId → TimerService := fun _ => {}
  timerCount : TimerId := 0
  clients : Nat := 0
  conns : ConnId → ClientConnection := fun _ => {}
  connCount : ConnId := 0
  /-- The client connections whose `fcgi::Requester` has an unfinished request. -/
  inProgress : List ConnId := []
  contexts : PostId → PostAction := fun _ => {}
  postCount : PostId := 0
  futures : FutureId → Future := fun _ => .pending
  ops : List AsyncOp := []
  /-- The objects that were destroyed. -/
  dead : Object → Bool := fun _ => false
  /-- The call stack, innermost frame first; empty in the event loop. -/
  stack : List Frame := []
  terminated : Bool := false
  trace : List Event := []
  /-- The calls of the event handler. -/
  errors : List (ErrorEvent × String) := []
  /-- The uses of destroyed objects by handlers. -/
  faults : List Object := []

namespace State

variable (s : State)

/-- Asyncgi's code uses a member of the object. -/
@[simps -fullyApplied]
def use (o : Object) : State :=
  { s with faults := s.faults ++ if s.dead o then [o] else [] }

@[simps -fullyApplied]
def emit (es : List Event) : State := { s with trace := s.trace ++ es }

/-- `eventHandler_(event, message)`. -/
@[simps -fullyApplied]
def report (event : ErrorEvent) (msg : String) : State :=
  { s with errors := s.errors ++ [(event, msg)] }

/-- Calls to the code of the frames, the first of them innermost. -/
@[simps -fullyApplied]
def push (fs : List Frame) : State := { s with stack := fs ++ s.stack }

/-! ### Request processor queues -/

/-- `queue.stop()` for an operation of `maker`, where there is a queue. -/
@[simps -fullyApplied]
def queueStop (maker q : Option RequestId) : State :=
  { s with
    paused := s.server.setPaused s.paused q true
    trace := s.trace ++ q.toList.map fun q => .queueStop maker q (s.server.queueAlive q) }

/-- `queue.launch()` for an operation of `maker`, where there is a queue. -/
@[simps -fullyApplied]
def queueLaunch (maker q : Option RequestId) : State :=
  { s with
    paused := s.server.setPaused s.paused q false
    trace := s.trace ++ q.toList.map fun q => .queueLaunch maker q (s.server.queueAlive q)
    stack := (s.server.lock q).toList.map .launch ++ s.stack }

/-! ### Asynchronous operations -/

/-- Starts an operation. -/
@[simps -fullyApplied]
def async (h : Handler) (delay : Milliseconds) : State :=
  { s with ops := s.ops ++ [{ handler := h, delay := delay }] }

/-- The pending operations whose handlers are as given are aborted. -/
@[simps -fullyApplied]
def abort (p : Handler → Bool) : State := { s with ops := s.ops.map (.abort p) }

end State

end Asyncgi
