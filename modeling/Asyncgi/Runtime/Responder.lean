import Asyncgi.Runtime.State

/-!
# Requests and their responders

`Connection` keeps one `ResponseSender` and one `ResponseContext`, those of the request delivered
last; a `Responder` holds a weak pointer to its request's context. `fcgi::Response::isValid` is
true until `send` has been called.

## Main definitions

* `ResponseSender.send`, `Responder.send`, `Responder.isSent`
* `Server.deliver`, `Server.destroy`, `Server.sendError`
* `Connection.processRequest`: a request is delivered, to a `Router` or to another processor
* `Connection.catchException`: the catch blocks of `processRequest`
-/

namespace Asyncgi

/-- `ResponseSender::send`. The `Responder` it is reached through is `through`'s. -/
def ResponseSender.send (v : Server) (through : RequestId) (answer : Answer) : Server :=
  match v.responseSender with
  | none => v
  | some r =>
    if v.isValid r then
      { v with
        isValid := Function.update v.isValid r false
        answers := v.answers ++ [{ request := r, through := through, answer := answer }] }
    else v

/-- `ResponseSender::isSent`. -/
def ResponseSender.isSent (v : Server) : Bool :=
  match v.responseSender with
  | none => true
  | some r => !v.isValid r

/-- `Responder::send`, on a responder of the request `r`. -/
def Responder.send (v : Server) (r : RequestId) (answer : Answer) : Server :=
  let v := { v with calls := v.calls ++ [(r, answer)] }
  if v.responseContext = some r then ResponseSender.send v r answer else v

/-- `Responder::isSent`, on a responder of the request `r`. -/
def Responder.isSent (v : Server) (r : RequestId) : Bool :=
  if v.responseContext = some r then ResponseSender.isSent v else true

/-- `Connection::processRequest` stores the request's response and makes its context. The context
of the request delivered before is destroyed, and with it that request's queue. -/
@[simps! -fullyApplied]
def Server.deliver (v : Server) : Server :=
  { v with
    requests := v.requests + 1
    isValid := Function.update v.isValid v.requests true
    responseSender := some v.requests
    responseContext := some v.requests }

/-- The connection is destroyed. -/
@[simps! -fullyApplied]
def Server.destroy (v : Server) : Server :=
  { v with responseSender := none, responseContext := none }

/-- A `Responder` in the catch blocks of `Connection::processRequest`, made from the connection's
context, sends the 500. -/
def Server.sendError (v : Server) : Server :=
  match v.responseContext with
  | some r => Responder.send v r .internalServerError
  | none => v

section Send

variable (v : Server) (r : RequestId) (answer : Answer)

/-- Sending changes nothing but the validity of the response and what has been sent. -/
theorem ResponseSender.send_eq : ∃ isValid answers,
    ResponseSender.send v r answer = { v with isValid := isValid, answers := answers } := by
  unfold ResponseSender.send
  split
  · exact ⟨_, _, rfl⟩
  · split <;> exact ⟨_, _, rfl⟩

theorem Responder.send_eq : ∃ isValid calls answers, Responder.send v r answer =
    { v with isValid := isValid, calls := calls, answers := answers } := by
  simp only [Responder.send]
  split
  · obtain ⟨isValid, answers, h⟩ :=
      ResponseSender.send_eq { v with calls := v.calls ++ [(r, answer)] } r answer
    exact ⟨isValid, _, answers, h⟩
  · exact ⟨_, _, _, rfl⟩

theorem Server.sendError_eq : ∃ isValid calls answers, v.sendError =
    { v with isValid := isValid, calls := calls, answers := answers } := by
  unfold Server.sendError
  split
  · exact Responder.send_eq v _ _
  · exact ⟨_, _, _, rfl⟩

@[simp] theorem Responder.send_responseContext :
    (Responder.send v r answer).responseContext = v.responseContext := by
  obtain ⟨_, _, _, h⟩ := Responder.send_eq v r answer
  rw [h]

@[simp] theorem Server.sendError_responseContext :
    v.sendError.responseContext = v.responseContext := by
  obtain ⟨_, _, _, h⟩ := v.sendError_eq
  rw [h]

end Send

/-- `ResponseContext::setRequestProcessorQueue`. -/
@[simps! -fullyApplied]
def ResponseContext.setRequestProcessorQueue (s : State) (queue : RequestId) : State :=
  { s with
    clientQueue := some queue
    dispatcherQueue := some queue
    providerQueue := some queue }

/-- The request processors a server can be given: a `Router`, or a function. -/
inductive RequestProcessor
  | router
  | function
  deriving DecidableEq, Repr

/-- `Router::operator()`: a new queue is made known to the services, and launched. -/
@[simps! -fullyApplied]
def Router.process (s : State) (r : RequestId) : State :=
  let s := ResponseContext.setRequestProcessorQueue s r
  (s.emit [.initialLaunch r]).push [.launch r]

/-- `Connection::processRequest`, up to the call of the request processor. -/
def Connection.processRequest (s : State) (processor : RequestProcessor) : State :=
  let r := s.server.requests
  let s := { s with server := s.server.deliver, paused := Function.update s.paused r false }
  let s := s.push [.tryBlock r]
  match processor with
  | .router => Router.process s r
  | .function => s.push [.user (.requestProcessor r)]

/-- The catch blocks of `Connection::processRequest`: `what` is the message of a
`std::exception`. -/
@[simps! -fullyApplied]
def Connection.catchException (s : State) (what : Option String) : State :=
  { s with server := s.server.sendError }.report .requestProcessingError
    (what.getD "Unknown error")

end Asyncgi
