import Asyncgi.Client.Forms
import Asyncgi.Client.Timeout

/-!
# The overloads of `makeRequest`

`ClientService::makeRequest` takes the path of a local socket or an IP address and a port, and a
`fastcgi::Request` or an `http::Request`. Each overload pauses the queue, starts the timeout and
registers a connection before it converts the address, which may throw. The overload for a
`fastcgi::Request` and an IP address converts what `ipAddress.data()` points to, up to the next
zero; the one for an `http::Request` converts the view.

What is taken from asio and hot_teacup: `make_address`, the constructor of a local endpoint and
`toFcgiData` are functions of what they are given.

## Main definitions

* `StringView`: a view of a part of an array of characters
* `ClientService.makeFastcgi`, `ClientService.makeHttp`: the overloads
* `LeavesNothing`: a call has left nothing behind
* `Agree`: the two forms of a request are the same

## Main results

* `throwing_call_leaves`: a call that throws always leaves something behind
* `forms_agree_iff`: the two forms are the same where the address reads as the view does
-/

namespace Asyncgi

/-- The terminating zero. -/
def nul : Char := Char.ofNat 0

/-- A `std::string_view`: its characters, and those that follow them in the array. -/
structure StringView where
  chars : List Char
  rest : List Char
  deriving DecidableEq, Repr

/-- The characters from `data()` on up to the terminating zero. Where there is none, reading them
leaves the array. -/
def StringView.cString (v : StringView) : Option (List Char) :=
  let array := v.chars ++ v.rest
  if nul ∈ array then some (array.takeWhile (· ≠ nul)) else none

/-- A view that ends where its array's string does is read as it is. -/
theorem StringView.cString_of_terminated {chars : List Char} (hchars : nul ∉ chars)
    (rest : List Char) : (StringView.mk chars (nul :: rest)).cString = some chars := by
  have hall : ∀ x ∈ chars, decide (x ≠ nul) = true := by
    intro x hx
    exact decide_eq_true fun h => hchars (h ▸ hx)
  simp only [cString]
  rw [if_pos (List.mem_append_right _ List.mem_cons_self), List.takeWhile_append_of_pos hall]
  simp

/-- `fastcgi::Request`. -/
structure FastcgiRequest where
  params : List (String × String)
  stdIn : Bytes
  deriving DecidableEq, Repr

/-- An endpoint of one of the two protocols. -/
inductive Endpoint (IpAddress LocalEndpoint : Type*)
  | path (socketPath : LocalEndpoint)
  | ip (address : IpAddress) (port : UInt16)
  deriving DecidableEq, Repr

/-- The conversions that the overloads call. Where one throws, it is its exception's `what()`. -/
structure Conversions (HttpRequest IpAddress LocalEndpoint : Type*) where
  /-- `asio::ip::make_address` -/
  makeAddress : List Char → Except String IpAddress
  /-- the constructor of `asio::local::stream_protocol::endpoint` -/
  localEndpoint : List Char → Except String LocalEndpoint
  /-- `http::Request::toFcgiData(http::FormType::Multipart)` -/
  toFcgiData : HttpRequest → FastcgiRequest

/-- How a call of `makeRequest` ends. -/
inductive Outcome (IpAddress LocalEndpoint : Type*)
  /-- `ClientConnection::makeRequest` is called -/
  | connects (endpoint : Endpoint IpAddress LocalEndpoint) (request : FastcgiRequest)
  | throws (what : String)
  /-- characters outside of the array are read -/
  | undefined
  deriving DecidableEq, Repr

/-- The address of a request. -/
inductive Transport
  | path (socketPath : List Char)
  | tcp (ipAddress : StringView) (port : UInt16)
  deriving DecidableEq, Repr

variable {HttpRequest IpAddress LocalEndpoint : Type*}

namespace ClientService

/-- The body that the overloads share: the queue is stopped, the timeout started and the connection
registered; then the address is converted, and the connection is told to make the request. -/
def requestThrough (s : State) (k : ClientRef) (maker : Option RequestId) (overload : Overload)
    (timeout : Milliseconds) (endpoint : Option (Except String (Endpoint IpAddress LocalEndpoint)))
    (request : FastcgiRequest) : State × Outcome IpAddress LocalEndpoint :=
  match endpoint with
  | some (.ok endpoint) => (makeRequest s k maker overload true timeout, .connects endpoint request)
  | some (.error what) => (makeRequest s k maker overload false timeout, .throws what)
  | none => (makeRequest s k maker overload false timeout, .undefined)

variable (conv : Conversions HttpRequest IpAddress LocalEndpoint) (s : State) (k : ClientRef)
  (maker : Option RequestId)

/-- `makeRequest(socketPath, fastcgi::Request, …)`. -/
def makeLocalFastcgi (socketPath : List Char) (request : FastcgiRequest) (timeout : Milliseconds) :
    State × Outcome IpAddress LocalEndpoint :=
  requestThrough s k maker .localFastcgi timeout
    (some ((conv.localEndpoint socketPath).map .path)) request

/-- `makeRequest(socketPath, http::Request, …)`. -/
def makeLocalHttp (socketPath : List Char) (request : HttpRequest) (timeout : Milliseconds) :
    State × Outcome IpAddress LocalEndpoint :=
  requestThrough s k maker .localHttp timeout
    (some ((conv.localEndpoint socketPath).map .path)) (conv.toFcgiData request)

/-- `makeRequest(ipAddress, port, fastcgi::Request, …)`. -/
def makeTcpFastcgi (ipAddress : StringView) (port : UInt16) (request : FastcgiRequest)
    (timeout : Milliseconds) : State × Outcome IpAddress LocalEndpoint :=
  -- `make_address(ipAddress.data())`
  requestThrough s k maker .tcpFastcgi timeout
    (ipAddress.cString.map fun chars => (conv.makeAddress chars).map (.ip · port)) request

/-- `makeRequest(ipAddress, port, http::Request, …)`. -/
def makeTcpHttp (ipAddress : StringView) (port : UInt16) (request : HttpRequest)
    (timeout : Milliseconds) : State × Outcome IpAddress LocalEndpoint :=
  -- `make_address(ipAddress)`
  requestThrough s k maker .tcpHttp timeout
    (some ((conv.makeAddress ipAddress.chars).map (.ip · port))) (conv.toFcgiData request)

/-- The overloads for a `fastcgi::Request`. -/
def makeFastcgi : Transport → FastcgiRequest → Milliseconds →
    State × Outcome IpAddress LocalEndpoint
  | .path socketPath => makeLocalFastcgi conv s k maker socketPath
  | .tcp ipAddress port => makeTcpFastcgi conv s k maker ipAddress port

/-- The overloads for an `http::Request`. -/
def makeHttp : Transport → HttpRequest → Milliseconds → State × Outcome IpAddress LocalEndpoint
  | .path socketPath => makeLocalHttp conv s k maker socketPath
  | .tcp ipAddress port => makeTcpHttp conv s k maker ipAddress port

end ClientService

/-- A request, in the one form or in the other. -/
inductive ClientRequest (HttpRequest : Type*)
  | fastcgi (request : FastcgiRequest)
  | http (request : HttpRequest)

/-- One of the four overloads. -/
def ClientService.call (conv : Conversions HttpRequest IpAddress LocalEndpoint) (s : State)
    (k : ClientRef) (maker : Option RequestId) (transport : Transport) (timeout : Milliseconds) :
    ClientRequest HttpRequest → State × Outcome IpAddress LocalEndpoint
  | .fastcgi request => makeFastcgi conv s k maker transport request timeout
  | .http request => makeHttp conv s k maker transport request timeout

/-! ## A call that throws -/

/-- The call that leads from `s` to `t` has left nothing behind: the queues are paused only if they
were, its timeout timer is not armed, its connection is not registered, and its response handler is
never called. -/
structure LeavesNothing (s t : State) : Prop where
  paused : ∀ q, t.paused q = true → s.paused q = true
  timer : ∀ op ∈ t.ops, op.handler.onTimer s.timerCount = false
  registered : ¬ (s.connCount < t.connCount ∧ t.dead (.conn s.connCount) = false)
  unanswered : ∀ l u, runtime.run t l = some u → ∀ r, .responseHandler s.connCount r ∉ u.trace

section Throws

variable {conv : Conversions HttpRequest IpAddress LocalEndpoint} {s : State} {k : ClientRef}
  {maker : Option RequestId} {timeout : Milliseconds} {what : String}

theorem ClientService.requestThrough_throws {overload : Overload}
    {endpoint : Option (Except String (Endpoint IpAddress LocalEndpoint))}
    {request : FastcgiRequest}
    (h : (requestThrough s k maker overload timeout endpoint request).2 = .throws what) :
    (requestThrough s k maker overload timeout endpoint request).1 =
      makeRequest s k maker overload false timeout := by
  unfold requestThrough at h ⊢
  split at h
  · cases h
  · rfl
  · cases h

/-- Whichever overload throws, it has done what precedes the conversion. -/
theorem ClientService.call_throws {transport : Transport} {request : ClientRequest HttpRequest}
    (h : (call conv s k maker transport timeout request).2 = .throws what) : ∃ overload,
      (call conv s k maker transport timeout request).1 =
        prepareRequest s k maker overload timeout := by
  cases request <;> cases transport <;> exact ⟨_, requestThrough_throws h⟩

/-- What precedes the conversion: the queue, where there is one, is stopped, the timeout is armed
and the connection is registered. -/
theorem ClientService.prepareRequest_leaves (s : State) (k : ClientRef) (maker : Option RequestId)
    (overload : Overload) (timeout : Milliseconds) :
    (∀ q, s.server.lock (k.queue s.clientQueue) = some q →
      (prepareRequest s k maker overload timeout).paused q = true) ∧
    { handler := .oneShot s.timerCount (.cancelRequest s.connCount), delay := timeout } ∈
      (prepareRequest s k maker overload timeout).ops ∧
    s.connCount < (prepareRequest s k maker overload timeout).connCount := by
  refine ⟨fun q hq => ?_, ?_, Nat.lt_succ_self _⟩
  · rw [prepareRequest_paused]
    exact if_pos hq
  · exact List.mem_append_right _ (List.mem_singleton_self _)

/-- **A call that throws leaves something behind**, whatever the state, the overload and its
arguments. -/
theorem throwing_call_leaves {transport : Transport} {request : ClientRequest HttpRequest}
    (h : (ClientService.call conv s k maker transport timeout request).2 = .throws what) :
    ¬ LeavesNothing s (ClientService.call conv s k maker transport timeout request).1 := by
  obtain ⟨overload, ht⟩ := ClientService.call_throws h
  rw [ht]
  intro hnothing
  obtain ⟨-, htimer, -⟩ := ClientService.prepareRequest_leaves s k maker overload timeout
  have hnot := hnothing.timer _ htimer
  simp [Handler.onTimer] at hnot

end Throws

/-- A decimal number of a dotted address. -/
def octet (chars : List Char) : Option Nat :=
  if chars ≠ [] ∧ chars.length ≤ 3 ∧ chars.all (·.isDigit) then
    let n := chars.foldl (fun n c => 10 * n + (c.toNat - 48)) 0
    if n ≤ 255 then some n else none
  else none

/-- The conversions of a POSIX system, for IPv4 addresses and requests without parameters. -/
def posix : Conversions Bytes (List Nat) (List Char) where
  makeAddress chars :=
    match (chars.splitOn '.').map octet with
    | [some a, some b, some c, some d] => .ok [a, b, c, d]
    | _ => .error "Invalid argument"
  localEndpoint chars := if chars.length < 108 then .ok chars else .error "File name too long"
  toFcgiData stdIn := { params := [], stdIn := stdIn }

theorem throwing_call_leaves_path : ∃ s, runtime.run runtime.init
      [.processRequest .router, .runProcessor] = some s ∧
    ¬ LeavesNothing s (ClientService.call posix s .connection (some 0)
      (.path (List.replicate 108 'a')) 3000 (.http [])).1 :=
  ⟨_, rfl, throwing_call_leaves (show _ = Outcome.throws "File name too long" by decide)⟩

/-- A route processor catches the exception of a path that is too long, and returns: no other
processor is run. -/
theorem caught_exception_hangs : ∃ s t u, runtime.run runtime.init
      [.processRequest .router, .runProcessor] = some s ∧ s.paused 0 = false ∧
    ClientService.call posix s .connection (some 0) (.path (List.replicate 108 'a')) 3000
      (.fastcgi ⟨[], []⟩) = (t, .throws "File name too long") ∧ ¬ LeavesNothing s t ∧
    runtime.run t [.ret none] = some u ∧ u.paused 0 = true ∧
    runtime.step u .runProcessor = none := by
  refine ⟨_, _, _, rfl, by decide, rfl, fun hnothing => ?_, rfl, by decide, by decide⟩
  have hpaused := hnothing.paused 0
  revert hpaused
  decide

/-! ## The two forms of a request -/

/-- The step does not destroy what has not been made. -/
theorem State.destroys_unmade {s : State} {c : ConnId} (hc : s.connCount ≤ c) (l : Label) :
    s.destroys l (.conn c) = false := by
  have hnot : decide (c < s.connCount) = false := decide_eq_false (Nat.not_lt.mpr hc)
  unfold destroys
  split
  · simp [connectionMembers, ClientService.members, hnot]
  · rfl
  · simp [ClientService.localConnections, hnot]
  · simp [ClientService.members, hnot]
  · rfl

/-- A request that has not been made has not been heard of. -/
theorem Tracks.of_unmade {s : State} {c : ConnId} (hs : runtime.Reachable s)
    (hc : s.connCount ≤ c) : Tracks c .unused s := by
  refine (hs.invariant (I := fun s => Registered s ∧ (s.connCount ≤ c → Tracks c .unused s))
    ⟨Registered.init, fun _ => Tracks.init c⟩ ?_).2 hc
  rintro s l t ⟨hreg, htracks⟩ hstep
  have hstep := Step.of_step hstep
  refine ⟨hreg.step hstep, fun ht => ?_⟩
  have hs : s.connCount ≤ c := Nat.le_trans hstep.connCount_le ht
  obtain ⟨next, hnext⟩ := (htracks hs).step hreg (State.destroys_unmade hs l) (fun _ => nofun) hstep
  exact (hnext.fresh ht).1 ▸ hnext

section Forms

variable {s : State} {k : ClientRef} {maker : Option RequestId} {timeout : Milliseconds}

/-- Before the request is made, its handler has not been called in either form. -/
theorem State.toHttp_unmade (hs : runtime.Reachable s) : s.toHttp s.connCount =
    { s with conns := (s.toHttp s.connCount).conns } := by
  have hanswers : s.trace.countP (·.answers s.connCount) = 0 :=
    congrArg Tally.answers (Tracks.of_unmade hs (Nat.le_refl _)).tally
  have htrace : s.trace.map (Event.toHttp s.connCount) = s.trace := by
    rw [List.map_congr_left (g := id), List.map_id]
    intro e he
    have hnot := List.countP_eq_zero.mp hanswers e he
    cases e
    case responseHandler d response =>
      have hd : d ≠ s.connCount := by simpa [Event.answers] using hnot
      simp [Event.toHttp, hd]
    all_goals rfl
  unfold toHttp
  rw [htrace]

/-- The member of the connection that is added does not matter before it is. -/
theorem ClientService.prepareRequest_withConns {conns : ConnId → ClientConnection}
    (hconns : ∀ d, d ≠ s.connCount → conns d = s.conns d) (overload : Overload) :
    prepareRequest { s with conns := conns } k maker overload timeout =
      prepareRequest s k maker overload timeout := by
  have hupdate : ∀ conn, Function.update conns s.connCount conn =
      Function.update s.conns s.connCount conn := by
    intro conn
    funext d
    by_cases hd : d = s.connCount
    · rw [hd, Function.update_self, Function.update_self]
    · rw [Function.update_of_ne hd, Function.update_of_ne hd, hconns d hd]
  exact congrArg (fun conns => { prepareRequest s k maker overload timeout with conns := conns })
    (hupdate _)

/-- The request that a call makes is made in the other form by the other overload. -/
theorem ClientService.makeRequest_toHttp (hs : runtime.Reachable s) (overload : Overload)
    (hasEndpoint : Bool) : makeRequest s k maker overload.toHttp hasEndpoint timeout =
      (makeRequest s k maker overload hasEndpoint timeout).toHttp s.connCount := by
  have hprepare : prepareRequest (s.toHttp s.connCount) k maker overload.toHttp timeout =
      prepareRequest s k maker overload.toHttp timeout := by
    rw [State.toHttp_unmade hs]
    apply prepareRequest_withConns
    intro d hd
    simp [State.toHttp, ClientConnection.toHttp, hd]
  rw [toHttp_makeRequest, if_pos rfl]
  simp only [makeRequest]
  rw [hprepare]
  rfl

/-- The request made in the one form behaves as the request made in the other: it connects to the
same endpoint, with the same request, or throws the same exception; and every run after it is the
same, but that the handler is given the response in its form. -/
def Agree (conv : Conversions HttpRequest IpAddress LocalEndpoint) (s : State) (k : ClientRef)
    (maker : Option RequestId) (transport : Transport) (request : HttpRequest)
    (timeout : Milliseconds) : Prop :=
  let http := ClientService.makeHttp conv s k maker transport request timeout
  let fastcgi :=
    ClientService.makeFastcgi conv s k maker transport (conv.toFcgiData request) timeout
  http.2 = fastcgi.2 ∧
    ∀ l, runtime.run http.1 l = (runtime.run fastcgi.1 l).map (State.toHttp s.connCount)

/-- The characters from the start of the view up to the next zero are there, and are converted as
the view is. -/
def Transport.ReadsView (conv : Conversions HttpRequest IpAddress LocalEndpoint) : Transport → Prop
  | path _ => True
  | tcp ipAddress _ =>
    ∃ chars, ipAddress.cString = some chars ∧
      conv.makeAddress chars = conv.makeAddress ipAddress.chars

variable {conv : Conversions HttpRequest IpAddress LocalEndpoint}

/-- The two overloads that convert the same do the same. -/
theorem ClientService.requestThrough_toHttp (hs : runtime.Reachable s) (overload : Overload)
    (endpoint : Except String (Endpoint IpAddress LocalEndpoint)) (request : FastcgiRequest) :
    requestThrough s k maker overload.toHttp timeout (some endpoint) request =
      ((requestThrough s k maker overload timeout (some endpoint) request).1.toHttp s.connCount,
        (requestThrough s k maker overload timeout (some endpoint) request).2) := by
  cases endpoint with
  | ok endpoint => exact congrArg (·, _) (makeRequest_toHttp hs overload true)
  | error what => exact congrArg (·, _) (makeRequest_toHttp hs overload false)

/-- The outcome of a call gives its endpoint. -/
theorem ClientService.requestThrough_outcome {o o' : Overload}
    {endpoint endpoint' : Option (Except String (Endpoint IpAddress LocalEndpoint))}
    {request : FastcgiRequest} (h : (requestThrough s k maker o timeout endpoint request).2 =
      (requestThrough s k maker o' timeout endpoint' request).2) : endpoint = endpoint' := by
  rcases endpoint with _ | _ | _ <;> rcases endpoint' with _ | _ | _ <;>
    simp [requestThrough] at h ⊢ <;> exact h

theorem ClientService.requestThrough_connCount (overload : Overload)
    (endpoint : Option (Except String (Endpoint IpAddress LocalEndpoint)))
    (request : FastcgiRequest) :
    s.connCount < (requestThrough s k maker overload timeout endpoint request).1.connCount := by
  unfold requestThrough
  split <;> exact Nat.lt_succ_self _

/-- Where the two overloads convert the same, the forms agree. -/
theorem ClientService.requestThrough_agree (hs : runtime.Reachable s) (overload : Overload)
    (endpoint : Except String (Endpoint IpAddress LocalEndpoint)) (request : FastcgiRequest) :
    let http := requestThrough s k maker overload.toHttp timeout (some endpoint) request
    let fastcgi := requestThrough s k maker overload timeout (some endpoint) request
    http.2 = fastcgi.2 ∧
      ∀ l, runtime.run http.1 l = (runtime.run fastcgi.1 l).map (State.toHttp s.connCount) := by
  intro http fastcgi
  have hhttp : http = (fastcgi.1.toHttp s.connCount, fastcgi.2) :=
    requestThrough_toHttp hs overload endpoint request
  refine ⟨by rw [hhttp], fun l => ?_⟩
  rw [hhttp]
  exact run_toHttp (requestThrough_connCount overload (some endpoint) request) l

/-- **The two forms agree where the address reads as the view does.** For a socket path this is
always so; for an IP address, what `data()` points to up to the next zero must be there, and be
converted as the characters of the view are. -/
theorem forms_agree_iff (hs : runtime.Reachable s) (transport : Transport)
    (request : HttpRequest) :
    Agree conv s k maker transport request timeout ↔ transport.ReadsView conv := by
  cases transport with
  | path socketPath =>
    exact ⟨fun _ => trivial, fun _ => ClientService.requestThrough_agree hs .localFastcgi
      ((conv.localEndpoint socketPath).map .path) (conv.toFcgiData request)⟩
  | tcp ipAddress port =>
    constructor
    · rintro ⟨houtcome, -⟩
      have hsame := ClientService.requestThrough_outcome houtcome.symm
      obtain ⟨chars, hchars, hmap⟩ := Option.map_eq_some_iff.mp hsame
      refine ⟨chars, hchars, ?_⟩
      cases haddress : conv.makeAddress chars <;>
        cases hview : conv.makeAddress ipAddress.chars <;>
          simp_all [Except.map]
    · rintro ⟨chars, hchars, hsame⟩
      have hfastcgi : ClientService.makeTcpFastcgi conv s k maker ipAddress port
          (conv.toFcgiData request) timeout = ClientService.requestThrough s k maker .tcpFastcgi
            timeout (some ((conv.makeAddress ipAddress.chars).map (.ip · port)))
              (conv.toFcgiData request) := by
        unfold ClientService.makeTcpFastcgi
        rw [hchars, Option.map_some, hsame]
      unfold Agree
      simp only [ClientService.makeHttp, ClientService.makeFastcgi]
      rw [hfastcgi]
      exact ClientService.requestThrough_agree hs .tcpFastcgi
        ((conv.makeAddress ipAddress.chars).map (.ip · port)) (conv.toFcgiData request)

/-- The view of an address at the start of an array, before the other characters of it. -/
def loopback (rest : List Char) : StringView :=
  { chars := ['1', '2', '7', '.', '0', '.', '0', '.', '1'], rest := rest }

theorem forms_agree_iff_terminated : ∃ s, runtime.run runtime.init
      [.processRequest .router, .runProcessor] = some s ∧
    Agree posix s .connection (some 0) (.tcp (loopback [nul]) 9000) [] 3000 := by
  refine ⟨_, rfl, ?_⟩
  refine (forms_agree_iff ⟨[.processRequest .router, .runProcessor], rfl⟩ _ _).mpr ?_
  exact ⟨_, StringView.cString_of_terminated (by decide) [], rfl⟩

/-- The view is the address in a string that goes on with the port: one form connects, the other
throws. -/
theorem forms_differ : ∃ s, runtime.run runtime.init
      [.processRequest .router, .runProcessor] = some s ∧
    (ClientService.makeHttp posix s .connection (some 0)
      (.tcp (loopback [':', '8', '0', '8', '0', nul]) 9000) [] 3000).2 =
        .connects (.ip [127, 0, 0, 1] 9000) (posix.toFcgiData []) ∧
    (ClientService.makeFastcgi posix s .connection (some 0)
      (.tcp (loopback [':', '8', '0', '8', '0', nul]) 9000) (posix.toFcgiData []) 3000).2 =
        .throws "Invalid argument" ∧
    ¬ Agree posix s .connection (some 0) (.tcp (loopback [':', '8', '0', '8', '0', nul]) 9000) []
      3000 := by
  refine ⟨_, rfl, by decide, by decide, fun hagree => ?_⟩
  have houtcome := hagree.1
  revert houtcome
  decide

end Forms

end Asyncgi
