import Asyncgi.Runtime.Timer

/-!
# Clients

`ClientService` makes a `ClientConnection`, a `fcgi::Requester`, and a timeout timer for each
request. What is taken from `fcgi::Requester`: it accepts or refuses a request given to
`sendRequest`; it calls the handler of an accepted request once, with the response when it is
complete or with nothing when `cancelRequest()` is called before; and it may call `sendData` and
`disconnect` in `sendRequest` and in `receiveData`. The model is restricted to requesters that call
neither in `cancelRequest()`.

## Main definitions

* `ClientConnection.makeRequest`, `processReading`, `sendData`, `onBytesWritten`, `disconnect`
* `ClientService.makeRequest`, `onResponseReceived`, `disconnect`
* `State.destroy`: the destruction of services and connections
-/

namespace Asyncgi

/-- What the environment decides while a handler of a client connection runs. -/
structure RequesterMoves where
  /-- the data the requester gives to `sendData` -/
  sends : List Bytes := []
  /-- the requester calls `disconnect()` -/
  disconnects : Bool := false
  /-- `sendRequest` accepts the request -/
  accepts : Bool := true
  /-- the received data completes the response -/
  response : Option ResponseData := none
  /-- what `socket_.close` reports, where the socket is closed -/
  closeError : Option String := none
  deriving DecidableEq, Repr

namespace State

variable (s : State)

/-- The connection `c` with other members. -/
@[simps -fullyApplied]
def setConn (c : ConnId) (f : ClientConnection → ClientConnection) : State :=
  { s with conns := Function.update s.conns c (f (s.conns c)) }

/-- `socket_.close(error)` reports. -/
@[simps -fullyApplied]
def reportClose (closeError : Option String) : State :=
  { s with
    errors := s.errors ++ (closeError.map fun msg => (ErrorEvent.socketCloseError, msg)).toList }

/-- The requester accepts a request: its handle is what `*cancelRequestOnTimeout` cancels. -/
@[simps! -fullyApplied]
def beginRequest (c : ConnId) : State :=
  { s.setConn c fun conn => { conn with cancelSet := true } with
    inProgress := s.inProgress ++ [c] }

/-- The requester's request is finished. -/
@[simps -fullyApplied]
def endRequest (c : ConnId) : State := { s with inProgress := s.inProgress.erase c }

/-- The objects are destroyed: operations on their sockets and timers that are still pending are
aborted, and their requesters forget their unfinished requests. -/
@[simps! -fullyApplied]
def destroy (p : Object → Bool) (closeErrors : List String) : State :=
  { s.abort (·.isOn p) with
    dead := fun o => s.dead o || p o
    inProgress := s.inProgress.filter fun c => !p (.conn c)
    errors := s.errors ++ closeErrors.map fun msg => (ErrorEvent.socketCloseError, msg) }

end State

/-- `requestProcessorQueue_` of a client service; only the connection's is ever set. -/
def ClientRef.queue (clientQueue : Option RequestId) : ClientRef → Option RequestId
  | connection => clientQueue
  | io _ => none

namespace ClientConnection

/-- `ClientConnection::close`. -/
def close (s : State) (c : ConnId) (closeError : Option String) : State :=
  let s := s.setConn c fun conn => { conn with isOpen := false, out := conn.out.onClose }
  (s.abort (·.onConn c)).reportClose closeError

/-- The members after a function of the write side, and its call on the socket. -/
def perform (s : State) (c : ConnId) (closeError : Option String)
    (r : WriteState × SocketCall) : State :=
  let s := s.setConn c fun conn => { conn with out := r.1 }
  match r.2 with
  | .none => s
  | .asyncWrite => s.async (.write c r.1.writeBuffer.length) 0
  | .close => close s c closeError

/-- `ClientConnection::sendData`. -/
def sendData (s : State) (c : ConnId) (data : Bytes) : State :=
  let s := s.use (.conn c)
  perform s c none ((s.conns c).out.sendData data)

/-- `ClientConnection::onBytesWritten`. -/
def onBytesWritten (s : State) (c : ConnId) (n : Nat) (closeError : Option String) : State :=
  let s := s.use (.conn c)
  perform s c closeError ((s.conns c).out.onBytesWritten n)

/-- `ClientConnection::disconnect`. -/
def disconnect (s : State) (c : ConnId) (closeError : Option String) : State :=
  let s := s.use (.conn c)
  perform s c closeError (s.conns c).out.disconnect

/-- `ClientConnection::processReading`. -/
def processReading (s : State) (c : ConnId) : State :=
  let s := s.use (.conn c)
  if (s.conns c).isOpen then s.async (.read c) 0 else s

/-- `ClientConnection::makeRequest`. -/
@[simps! -fullyApplied]
def makeRequest (s : State) (c : ConnId) : State :=
  ((s.use (.conn c)).setConn c fun conn => { conn with isOpen := true }).async (.connect c) 0

/-- The requester's calls of `sendData` and `disconnect`. -/
def runRequester (s : State) (c : ConnId) (moves : RequesterMoves) : State :=
  let s := moves.sends.foldl (fun s data => sendData s c data) s
  if moves.disconnects then disconnect s c moves.closeError else s

end ClientConnection

/-- What the user's response handler is given with a response. -/
def Overload.responseOf (overload : Overload) (response : ResponseData) : Response :=
  if overload.isHttp then .http response.data else .fastcgi response.data response.errorMsg

namespace ClientService

/-- `ClientService::makeRequest` before the call of `ClientConnection::makeRequest`, for a
connection that will be number `connCount` and a timeout timer that will be number `timerCount`. -/
@[simps! -fullyApplied]
def prepareRequest (s : State) (k : ClientRef) (maker : Option RequestId) (overload : Overload)
    (timeout : Milliseconds) : State :=
  let c := s.connCount
  let t := s.timerCount
  let s := (s.use (.client k)).queueStop maker (k.queue s.clientQueue)
  -- the service's own `timerProvider_` is never given a queue
  let s := s.emplaceTimer { owner := .client k }
  let s := TimerService.start s t timeout (.cancelRequest c)
  { s with
    conns := Function.update s.conns c
      { service := k, maker := maker, overload := overload, timer := t }
    connCount := c + 1 }

/-- `ClientService::makeRequest`. The conversion of the address has no `endpoint` where it
throws. -/
def makeRequest (s : State) (k : ClientRef) (maker : Option RequestId) (overload : Overload)
    (hasEndpoint : Bool) (timeout : Milliseconds) : State :=
  let s' := prepareRequest s k maker overload timeout
  if hasEndpoint then ClientConnection.makeRequest s' s.connCount else s'

/-- `eventHandler_(RequestProcessingError, errorMsg)`, where there is a message. -/
@[simps -fullyApplied]
def reportErrorMsg (s : State) (k : ClientRef) (errorMsg : String) : State :=
  { s with
    errors := s.errors ++ if errorMsg = "" then [] else [(.requestProcessingError, errorMsg)]
    faults := s.faults ++ if errorMsg ≠ "" ∧ s.dead (.client k) then [.client k] else [] }

/-- `onResponseReceived`, up to the call of the user's handler. -/
@[simps! -fullyApplied]
def onResponseReceived (s : State) (c : ConnId) (response : Option ResponseData) : State :=
  let s := TimerService.stop s (s.conns c).timer
  let s := reportErrorMsg s (s.conns c).service (response.elim "" (·.errorMsg))
  let s := s.emit [.responseHandler c (response.map (s.conns c).overload.responseOf)]
  s.push [.user (.responseHandler c), .afterResponse c]

/-- `onResponseReceived`, after the user's handler has returned. The queue is read again. -/
@[simps! -fullyApplied]
def afterResponse (s : State) (c : ConnId) : State :=
  let k := (s.conns c).service
  let s := (s.use (.client k)).emit [.returned (.client c)]
  s.queueLaunch (s.conns c).maker (k.queue s.clientQueue)

/-- The connections in `localClientConnections_`. -/
def localConnections (s : State) (k : ClientRef) : Object → Bool
  | .conn c => c < s.connCount && (s.conns c).service == k && (s.conns c).overload.isLocal
  | _ => false

/-- `ClientService::disconnect`. -/
def disconnect (s : State) (k : ClientRef) (closeErrors : List String) : State :=
  s.destroy (localConnections s k) closeErrors

/-- The service and its members. -/
def members (s : State) (k : ClientRef) : Object → Bool
  | .client k' => k' == k
  | .conn c => c < s.connCount && (s.conns c).service == k
  | .timer t => t < s.timerCount && (s.timers t).owner == .client k
  | .connection => false

end ClientService

namespace ClientConnection

/-- The handler of `async_connect`. -/
def onConnected (s : State) (c : ConnId) (error : Option OpError) (moves : RequesterMoves) :
    State :=
  match error with
  | some _ => ClientService.onResponseReceived s c none
  | none =>
    let s := processReading s c
    let s := runRequester s c moves
    if moves.accepts then s.beginRequest c else ClientService.onResponseReceived s c none

/-- The handler of `async_read_some`. -/
def onRead (s : State) (c : ConnId) (error : Option OpError) (moves : RequesterMoves) : State :=
  match error with
  | some .aborted => s
  | some e => (s.use (.conn c)).report .socketReadError e.message
  | none =>
    -- `readData`: `receiveData` may answer the request, then `processReading` goes on
    let s := runRequester (s.use (.conn c)) c moves
    let s := s.push [.afterReceive c]
    match moves.response with
    | some r =>
      if c ∈ s.inProgress then ClientService.onResponseReceived (s.endRequest c) c (some r)
      else s
    | none => s

/-- The handler of `async_write`. -/
def onWritten (s : State) (c : ConnId) (size : Nat) (error : Option OpError)
    (moves : RequesterMoves) : State :=
  match error with
  | some e => (s.use (.conn c)).report .socketWriteError e.message
  | none => onBytesWritten s c size moves.closeError

/-- `(*cancelRequestOnTimeout)()`: nothing, or `cancelRequest()` on the request's handle, in which
the requester neither sends data nor disconnects. -/
def cancelOnTimeout (s : State) (c : ConnId) : State :=
  if (s.conns c).cancelSet ∧ c ∈ s.inProgress then
    ClientService.onResponseReceived (s.endRequest c) c none
  else s

end ClientConnection

end Asyncgi
