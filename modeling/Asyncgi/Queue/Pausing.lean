import Asyncgi.Queue.Outstanding
import Asyncgi.Queue.Ownership

/-!
# Pausing the queue of a request

Every operation stops the queue of its request when it starts and launches it when it completes,
without a count of those that are pending. The queue waits for the operations as long as they are
started one at a time, and no timer is stopped but the periodic one that is outstanding.

## Main definitions

* `OneAtATime`: the condition on the calls of user code
* `State.live`: what the state holds of an operation that is to complete
* `Pauses`: an operation that is to complete is the only outstanding one of its request, whose
  queue is paused

## Main results

* `launched_idle`: in the runs that meet the condition, queues are launched only while their
  request has no outstanding operation
-/

namespace Asyncgi

/-! ## The condition -/

/-- The request through whose responder a step starts an operation. -/
def State.starter (s : State) : Label → Option RequestId
  | .command (.start t _ _) | .command (.startPeriodic t _ _) | .command (.waitFuture t _ _) =>
    (s.timers t).maker
  | .command (.makeRequest client _ true _) => client.maker
  | .command (.postTask maker) => maker
  | _ => none

/-- The timer that a step stops, the end of a one-shot wait apart. -/
def State.stopper (s : State) : Label → Option TimerId
  | .command (.stop t) => some t
  | .resume _ =>
    match s.stack with
    | .afterFuture t :: _ => some t
    | _ => none
  | _ => none

/-- Operations are started one at a time, and a timer is stopped only while nothing but its own
periodic wait is outstanding. -/
structure OneAtATime (s : State) (l : Label) : Prop where
  start : ∀ q, s.starter l = some q → outstanding q s.trace = []
  stop : ∀ t, s.stopper l = some t → ∀ q, (s.timers t).maker = some q →
    ∀ op ∈ outstanding q s.trace, op = .periodic t

instance (s : State) (l : Label) : Decidable (OneAtATime s l) :=
  decidable_of_iff ((∀ q ∈ s.starter l, outstanding q s.trace = []) ∧
    ∀ t ∈ s.stopper l, ∀ q ∈ (s.timers t).maker,
      ∀ op ∈ outstanding q s.trace, op = .periodic t)
    ⟨fun h => ⟨h.1, h.2⟩, fun h => ⟨h.start, h.stop⟩⟩

/-! ## Operations that are to complete -/

/-- The operation that a handler completes. -/
def Handler.operation : Handler → Option Operation
  | oneShot t _ => some (.oneShot t)
  | connect c => some (.client c)
  | postedTask p => some (.task p)
  | _ => none

/-- A wait that was aborted completes nothing. -/
def AsyncOp.operation (a : AsyncOp) : Option Operation :=
  if a.handler.isWait && a.status.failed then none else a.handler.operation

/-- The operation that the rest of a handler completes. -/
def Frame.operation : Frame → Option Operation
  | afterOneShot t => some (.oneShot t)
  | afterResponse c => some (.client c)
  | taskHandler p => some (.task p)
  | _ => none

namespace State

variable (s : State)

/-- The handlers that are to complete the operation, waiting and running. -/
def claims (op : Operation) : Nat :=
  s.ops.countP (·.operation = some op) + s.stack.countP (·.operation = some op)

/-- What the state holds of an operation that is to complete; a periodic timer is only stopped. -/
def live : Operation → Nat
  | .client c => s.claims (.client c) + s.inProgress.count c
  | .oneShot t => s.claims (.oneShot t)
  | .periodic _ => 0
  | .task p => if (s.contexts p).held ∨ 0 < (s.contexts p).copies then 1 else 0

/-- The request through whose responder an operation is started. -/
def maker : Operation → Option RequestId
  | .client c => (s.conns c).maker
  | .oneShot t | .periodic t => (s.timers t).maker
  | .task p => (s.contexts p).maker

end State

/-- The operations of a request are outstanding while they are to complete, one at a time, and the
queue of the request is paused meanwhile. -/
structure Pauses (s : State) : Prop where
  single : ∀ q, (outstanding q s.trace).length ≤ 1
  delivered : ∀ q, outstanding q s.trace ≠ [] → q < s.server.requests
  context : ∀ q, s.server.responseContext = some q → q < s.server.requests
  live : ∀ op q, s.maker op = some q → s.live op ≤ (outstanding q s.trace).count op
  held : ∀ p, s.claims (.task p) ≤ if (s.contexts p).held then 1 else 0
  paused : ∀ q, s.server.responseContext = some q → outstanding q s.trace ≠ [] →
    s.paused q = true
  idle : LaunchedIdle s.trace

/-! ## Steps that complete nothing -/

namespace AsyncOp

variable {p : Handler → Bool} {a : AsyncOp} {op : Operation}

theorem operation_of_abort (h : (a.abort p).operation = some op) : a.operation = some op := by
  rcases a.abort_status (p := p) with hstatus | ⟨hpending, -, hstatus⟩
  · rwa [operation, abort_handler, hstatus] at h
  · rw [operation, abort_handler, hstatus] at h
    rw [operation, hpending]
    by_cases hwait : a.handler.isWait
    · simp [hwait, OpStatus.failed] at h
    · simpa [hwait] using h

end AsyncOp

namespace State

variable (s : State) (op : Operation)

theorem claims_abort_le (p : Handler → Bool) : (s.abort p).claims op ≤ s.claims op := by
  unfold claims
  rw [abort_ops, List.countP_map]
  refine Nat.add_le_add_right (List.countP_mono_left fun a _ h => ?_) _
  simpa using AsyncOp.operation_of_abort (by simpa using h)

theorem claims_async (h : Handler) (delay : Milliseconds) :
    (s.async h delay).claims op = s.claims op + if h.operation = some op then 1 else 0 := by
  unfold claims
  rw [async_ops, List.countP_append, List.countP_singleton]
  simp [AsyncOp.operation, OpStatus.failed]
  omega

theorem claims_timerStart_le (u : TimerId) (time : Milliseconds) (task : Task) :
    (TimerService.start s u time task).claims op ≤
      s.claims op + if op = .oneShot u then 1 else 0 := by
  have habort := (TimerService.stopQueue s u).claims_abort_le op (·.onTimer u)
  refine Nat.le_trans (Nat.le_of_eq (claims_async _ op (.oneShot u task) time)) ?_
  simp only [Handler.operation, Option.some.injEq, eq_comm (b := op)]
  exact Nat.add_le_add_right habort _

theorem claims_push (fs : List Frame) :
    (s.push fs).claims op = s.claims op + fs.countP (·.operation = some op) := by
  unfold claims
  rw [push_stack, List.countP_append, push_ops]
  omega

end State

/-- What an operation that is taken out was to complete. -/
theorem State.claims_eraseIdx {s : State} {i : Nat} {a : AsyncOp} (hop : s.ops[i]? = some a)
    (op : Operation) : s.claims op =
      { s with ops := s.ops.eraseIdx i }.claims op + if a.operation = some op then 1 else 0 := by
  obtain ⟨hlt, rfl⟩ := List.getElem?_eq_some_iff.mp hop
  have hperm := (List.getElem_cons_eraseIdx_perm hlt).countP_eq (·.operation = some op)
  rw [List.countP_cons] at hperm
  simp only [decide_eq_true_eq] at hperm
  simp only [State.claims]
  omega

/-- What the completion of a handler was to complete. -/
theorem Delivers.claims {s u : State} {i : Nat} {h : Handler} {error : Option OpError}
    (hd : Delivers s i h error u) (op : Operation) :
    s.claims op = u.claims op +
      if (AsyncOp.mk h (.done error) 0).operation = some op then 1 else 0 := by
  obtain ⟨-, ⟨delay, hop⟩, rfl⟩ := hd
  exact State.claims_eraseIdx hop op

/-- The rest of a handler completes what the handler does. -/
theorem WaitsFor.operation {u : TimerId} {task : Task} {h : Handler} {f : Frame}
    (hk : WaitsFor u task h f) : f.operation = (AsyncOp.mk h (.done none) 0).operation := by
  cases hk <;> rfl

/-- The code of a connection completes no operation. -/
theorem OnSocket.claims_le {c : ConnId} {s t : State} (h : OnSocket c s t) (op : Operation) :
    t.claims op ≤ s.claims op := by
  obtain ⟨p, new, hops, -, hnew⟩ := h.ops
  have hzero : new.countP (fun a => a.operation = some op) = 0 := by
    rw [List.countP_eq_zero]
    intro a ha
    -- reads and writes complete no operation
    have htransfers := hnew a ha
    unfold AsyncOp.operation
    revert htransfers
    cases a.handler <;> simp [Handler.transfersOn, Handler.isWait, Handler.operation]
  unfold State.claims
  rw [hops, List.countP_append, hzero, Nat.add_zero, h.stack, List.countP_map]
  refine Nat.add_le_add_right (List.countP_mono_left fun a _ ha => ?_) _
  simpa using AsyncOp.operation_of_abort (by simpa using ha)

/-- The object of an operation has been made. -/
def Operation.Made (s : State) : Operation → Prop
  | client c => c < s.connCount
  | oneShot t | periodic t => t < s.timerCount
  | task p => p < s.postCount

/-- An operation whose object has not been made is not to complete. -/
theorem Registered.claims_eq_zero {s : State} (hs : Registered s) {op : Operation}
    (hop : ¬ op.Made s) : s.claims op = 0 := by
  unfold State.claims
  rw [Nat.add_eq_zero_iff, List.countP_eq_zero, List.countP_eq_zero]
  constructor
  · intro a ha hclaim
    have hfits := hs.ops a ha
    have hoperation : a.handler.operation = some op := by
      have := of_decide_eq_true hclaim
      unfold AsyncOp.operation at this
      split at this
      · cases this
      · exact this
    cases hh : a.handler <;> rw [hh] at hoperation hfits <;> cases hoperation
    case oneShot.refl => exact hop hfits.1
    case connect.refl => exact hop hfits
    case postedTask.refl => exact hop hfits
  · intro f hf hclaim
    have hfits := hs.stack f hf
    have hoperation := of_decide_eq_true hclaim
    cases f <;> cases hoperation
    case afterOneShot.refl => exact hop hfits
    case afterResponse.refl => exact hop hfits
    case taskHandler.refl => exact hop hfits

/-- From `s` to `t` no operation completes, and none starts through a responder. -/
structure Calm (s t : State) : Prop where
  live : ∀ op q, t.maker op = some q → t.live op = 0 ∨ s.maker op = some q ∧ t.live op ≤ s.live op
  held : ∀ p, t.claims (.task p) ≤ s.claims (.task p) ∧ (t.contexts p).held = (s.contexts p).held
  requests : t.server.requests = s.server.requests
  context : ∀ q, t.server.responseContext = some q → s.server.responseContext = some q
  paused : ∀ q, s.paused q = true → t.paused q = true
  trace : ∃ es, t.trace = s.trace ++ es ∧ ∀ e ∈ es, e.isMild

namespace Calm

variable {s t u : State}

theorem trans (h : Calm s t) (h' : Calm t u) : Calm s u where
  live op q hmaker := by
    rcases h'.live op q hmaker with hzero | ⟨hmaker, hle⟩
    · exact Or.inl hzero
    · rcases h.live op q hmaker with hzero | ⟨hmaker, hle'⟩
      · left
        omega
      · exact Or.inr ⟨hmaker, Nat.le_trans hle hle'⟩
  held p := ⟨Nat.le_trans (h'.held p).1 (h.held p).1, (h'.held p).2.trans (h.held p).2⟩
  requests := h'.requests.trans h.requests
  context q hq := h.context q (h'.context q hq)
  paused q hq := h'.paused q (h.paused q hq)
  trace := by
    obtain ⟨es, htrace, hes⟩ := h.trace
    obtain ⟨es', htrace', hes'⟩ := h'.trace
    refine ⟨es ++ es', by rw [htrace', htrace, List.append_assoc], fun e he => ?_⟩
    exact (List.mem_append.mp he).elim (hes e) (hes' e)

/-- The objects stay as they are, and no more is to complete than before. -/
theorem of_live (hobjects : (t.timers, t.contexts) = (s.timers, s.contexts))
    (hconns : ∀ c, (t.conns c).maker = (s.conns c).maker)
    (hclient : ∀ c, t.live (.client c) ≤ s.live (.client c))
    (hclaims : ∀ op, (∀ c, op ≠ .client c) → t.claims op ≤ s.claims op)
    (hserver : (t.server.requests, t.server.responseContext) =
      (s.server.requests, s.server.responseContext))
    (hpaused : ∀ q, s.paused q = true → t.paused q = true)
    (es : List Event) (htrace : t.trace = s.trace ++ es) (hes : ∀ e ∈ es, e.isMild) :
    Calm s t := by
  obtain ⟨htimers, hcontexts⟩ := Prod.mk.inj hobjects
  obtain ⟨hrequests, hcontext⟩ := Prod.mk.inj hserver
  constructor
  · intro op q hmaker
    right
    cases op with
    | client c => exact ⟨(hconns c).symm.trans hmaker, hclient c⟩
    | oneShot u =>
      rw [State.maker, htimers] at hmaker
      exact ⟨hmaker, hclaims _ nofun⟩
    | periodic u =>
      rw [State.maker, htimers] at hmaker
      exact ⟨hmaker, Nat.le_refl _⟩
    | task p =>
      rw [State.maker, hcontexts] at hmaker
      refine ⟨hmaker, Nat.le_of_eq ?_⟩
      rw [State.live, State.live, hcontexts]
  · exact fun p => ⟨hclaims _ nofun, by rw [hcontexts]⟩
  · exact hrequests
  · exact fun q hq => hcontext ▸ hq
  · exact hpaused
  · exact ⟨es, htrace, hes⟩

/-- Fewer handlers are to complete operations. -/
theorem of_claims (hobjects : (t.timers, t.contexts) = (s.timers, s.contexts))
    (hconns : ∀ c, (t.conns c).maker = (s.conns c).maker)
    (hclaims : ∀ op, t.claims op ≤ s.claims op)
    (hprog : ∀ c, t.inProgress.count c ≤ s.inProgress.count c)
    (hserver : (t.server.requests, t.server.responseContext) =
      (s.server.requests, s.server.responseContext))
    (hpaused : ∀ q, s.paused q = true → t.paused q = true)
    (es : List Event) (htrace : t.trace = s.trace ++ es) (hes : ∀ e ∈ es, e.isMild) :
    Calm s t :=
  of_live hobjects hconns (fun c => Nat.add_le_add (hclaims _) (hprog c)) (fun op _ => hclaims op)
    hserver hpaused es htrace hes

/-- Nothing that an operation is to complete changes. -/
theorem congr (hview : (t.timers, t.contexts, t.conns, t.inProgress, t.ops, t.stack, t.paused) =
      (s.timers, s.contexts, s.conns, s.inProgress, s.ops, s.stack, s.paused))
    (hserver : (t.server.requests, t.server.responseContext) =
      (s.server.requests, s.server.responseContext))
    (es : List Event) (htrace : t.trace = s.trace ++ es) (hes : ∀ e ∈ es, e.isMild) :
    Calm s t := by
  simp only [Prod.mk.injEq] at hview
  obtain ⟨htimers, hcontexts, hconns, hprog, hops, hstack, hpaused⟩ := hview
  refine of_claims (by rw [htimers, hcontexts]) (fun _ => by rw [hconns]) (fun op => ?_)
    (fun _ => Nat.le_of_eq (by rw [hprog])) hserver (fun q hq => hpaused ▸ hq) es htrace hes
  exact Nat.le_of_eq (by rw [State.claims, State.claims, hops, hstack])

theorem use (s : State) (o : Object) : Calm s (s.use o) :=
  congr rfl rfl [] (List.append_nil _).symm (by simp)

theorem emit (s : State) (es : List Event) (hes : ∀ e ∈ es, e.isMild) : Calm s (s.emit es) :=
  congr rfl rfl es rfl hes

theorem queueStop (s : State) (maker q : Option RequestId) : Calm s (s.queueStop maker q) := by
  refine of_claims rfl (fun _ => rfl) (fun _ => Nat.le_refl _) (fun _ => Nat.le_refl _) rfl
    (fun r hr => ?_) _ rfl (by simp [Event.isMild])
  rw [State.queueStop_paused, Server.setPaused]
  split
  · rfl
  · exact hr

/-- Only the operations and the stack change, and fewer of their handlers are to complete
operations. -/
theorem withOps (s : State) {ops : List AsyncOp} {fs : List Frame}
    (hclaims : ∀ op, { s with ops := ops, stack := fs }.claims op ≤ s.claims op) :
    Calm s { s with ops := ops, stack := fs } :=
  of_claims rfl (fun _ => rfl) hclaims (fun _ => Nat.le_refl _) rfl (fun _ => id)
    [] (List.append_nil _).symm (by simp)

theorem abort (s : State) (p : Handler → Bool) : Calm s (s.abort p) :=
  withOps s fun op => s.claims_abort_le op p

theorem async (s : State) {h : Handler} (hh : h.operation = none) (delay : Milliseconds) :
    Calm s (s.async h delay) := by
  refine withOps s fun op => Nat.le_of_eq ?_
  refine (s.claims_async op h delay).trans ?_
  simp [hh]

theorem pops (s : State) {fs : List Frame} (hfs : fs <:+ s.stack) : Calm s { s with stack := fs } :=
  withOps s fun _ => Nat.add_le_add_left hfs.sublist.countP_le _

theorem push (s : State) (fs : List Frame) (hfs : ∀ f ∈ fs, f.operation = none) :
    Calm s (s.push fs) := by
  refine withOps s fun op => Nat.le_of_eq ?_
  refine (s.claims_push op fs).trans ?_
  rw [List.countP_eq_zero.mpr, Nat.add_zero]
  intro f hf
  simp [hfs f hf]

theorem send (s : State) (r : RequestId) (answer : Answer) : Calm s (s.send r answer) := by
  obtain ⟨_, _, _, hserver⟩ := Responder.send_eq s.server r answer
  refine congr rfl ?_ [] (List.append_nil _).symm (by simp)
  show ((Responder.send s.server r answer).requests,
    (Responder.send s.server r answer).responseContext) = _
  rw [hserver]

/-! ### Completions -/

theorem delivers {i : Nat} {h : Handler} {error : Option OpError} (hd : Delivers s i h error t) :
    Calm s t := by
  have hclaims : ∀ op, t.claims op ≤ s.claims op := fun op => by
    rw [hd.claims op]
    exact Nat.le_add_right _ _
  obtain ⟨-, -, rfl⟩ := hd
  exact withOps s hclaims

/-- The handler calls user code or code of the queue, and `f` is the rest of it. -/
theorem runs {i : Nat} {h : Handler} {error : Option OpError} {f : Frame}
    (hd : Delivers s i h error t) (hf : f.operation = (AsyncOp.mk h (.done error) 0).operation)
    (fs : List Frame) (hfs : ∀ g ∈ fs, g.operation = none) : Calm s (t.push (fs ++ [f])) := by
  have hclaims : ∀ op, (t.push (fs ++ [f])).claims op ≤ s.claims op := by
    intro op
    have hrest : fs.countP (fun g => g.operation = some op) = 0 := by
      rw [List.countP_eq_zero]
      intro g hg
      simp [hfs g hg]
    rw [State.claims_push, hd.claims op, List.countP_append, hrest, Nat.zero_add,
      List.countP_singleton, hf]
    simp
  obtain ⟨-, -, rfl⟩ := hd
  exact withOps s hclaims

theorem onSocket {c : ConnId} (h : OnSocket c s t) : Calm s t :=
  of_claims (by rw [h.timers, h.contexts]) h.maker h.claims_le
    (fun d => Nat.le_of_eq (by rw [h.inProgress])) (by rw [h.server]) (fun q hq => h.paused ▸ hq)
    [] (by rw [h.trace, List.append_nil]) (by simp)

theorem destroy (s : State) (p : Object → Bool) (closeErrors : List String) :
    Calm s (s.destroy p closeErrors) :=
  of_claims rfl (fun _ => rfl) (fun op => s.claims_abort_le op _)
    (fun c => List.filter_sublist.count_le c) rfl (fun _ => id) []
    (List.append_nil _).symm (by simp)

/-! ### Client requests -/

/-- The call of the response handler; the timeout timer has no queue. -/
theorem of_response (hreg : Registered t) {c : ConnId} (hc : c < t.connCount)
    {response : Option ResponseData} (hobjects : (t.timers, t.contexts) = (s.timers, s.contexts))
    (hconns : ∀ d, (t.conns d).maker = (s.conns d).maker)
    (hclient : ∀ d, t.live (.client d) + (if d = c then 1 else 0) ≤ s.live (.client d))
    (hclaims : ∀ op, (∀ d, op ≠ .client d) → t.claims op ≤ s.claims op)
    (hserver : t.server = s.server) (hpaused : t.paused = s.paused)
    (es : List Event) (htrace : t.trace = s.trace ++ es) (hes : ∀ e ∈ es, e.isMild) :
    Calm s (ClientService.onResponseReceived t c response) := by
  have hqueue : (t.timers (t.conns c).timer).requestProcessorQueue = none := by
    rw [(hreg.conn c hc).2]
  have hadd : ∀ op, (ClientService.onResponseReceived t c response).claims op ≤
      t.claims op + if op = .client c then 1 else 0 := by
    intro op
    have habort := t.claims_abort_le op (·.onTimer (t.conns c).timer)
    have hstack : (ClientService.onResponseReceived t c response).stack =
        [.user (.responseHandler c), .afterResponse c] ++ t.stack := by
      rw [ClientService.onResponseReceived_stack, hqueue]
      rfl
    have hframes : [Frame.user (.responseHandler c), .afterResponse c].countP
        (fun f => f.operation = some op) = if op = .client c then 1 else 0 := by
      simp [Frame.operation, List.countP_cons, eq_comm]
    simp only [State.claims, State.abort_ops, State.abort_stack] at habort
    rw [State.claims, State.claims, hstack, List.countP_append, hframes,
      ClientService.onResponseReceived_ops]
    omega
  refine of_live hobjects hconns (fun d => ?_) (fun op hop => ?_) ?_ (fun q hq => ?_) (es ++
    [.timerStopped (t.conns c).timer,
      .responseHandler c (response.map (t.conns c).overload.responseOf)]) ?_ ?_
  · refine Nat.le_trans ?_ (hclient d)
    have hd := hadd (.client d)
    show _ + t.inProgress.count d ≤ _ + t.inProgress.count d + _
    simp only [Operation.client.injEq] at hd
    omega
  · refine Nat.le_trans (hadd op) ?_
    rw [if_neg (hop c), Nat.add_zero]
    exact hclaims op hop
  · show (t.server.requests, t.server.responseContext) = _
    rw [hserver]
  · rw [ClientService.onResponseReceived_paused, hqueue, Server.setPaused_none, hpaused]
    exact hq
  · rw [ClientService.onResponseReceived_trace, htrace, hqueue]
    simp
  · intro e he
    rcases List.mem_append.mp he with he | he
    · exact hes e he
    · simp only [List.mem_cons, List.not_mem_nil, or_false] at he
      rcases he with rfl | rfl <;> rfl

/-- The connect handler calls the response handler. -/
theorem answer_connect {i : Nat} {c : ConnId} {error : Option OpError}
    (hd : Delivers s i (.connect c) error u) (ht : OnSocket c u t) (hreg : Registered t)
    (hc : c < t.connCount) (response : Option ResponseData) :
    Calm s (ClientService.onResponseReceived t c response) := by
  have hclaims : ∀ op, t.claims op + (if op = .client c then 1 else 0) ≤ s.claims op := by
    intro op
    rw [hd.claims op]
    refine Nat.add_le_add (ht.claims_le op) (Nat.le_of_eq ?_)
    simp [AsyncOp.operation, Handler.isWait, Handler.operation, eq_comm]
  have hrest := hd.rest
  refine of_response hreg hc ?_ (fun d => ?_) (fun d => ?_) (fun op _ => ?_) ?_ ?_ [] ?_
    (by simp)
  · rw [ht.timers, ht.contexts, hrest]
  · rw [ht.maker, hrest]
  · have hd := hclaims (.client d)
    simp only [State.live, ht.inProgress, hrest, Operation.client.injEq] at hd ⊢
    omega
  · exact Nat.le_trans (Nat.le_add_right _ _) (hclaims op)
  · rw [ht.server, hrest]
  · rw [ht.paused, hrest]
  · rw [ht.trace, hrest, List.append_nil]

/-- The handler of the requester's request calls the response handler. -/
theorem answer_unfinished (hreg : Registered s) {c : ConnId} (hc : c ∈ s.inProgress)
    (response : Option ResponseData) :
    Calm s (ClientService.onResponseReceived (s.endRequest c) c response) := by
  refine of_response (hreg.endRequest c) (hreg.inProgress c hc) rfl (fun _ => rfl) (fun d => ?_)
    (fun op _ => Nat.le_refl _) rfl rfl [] (List.append_nil _).symm (by simp)
  show s.claims _ + (s.inProgress.erase c).count d + _ ≤ s.claims _ + s.inProgress.count d
  have hpos := List.count_pos_iff.mpr hc
  rw [List.count_erase]
  by_cases hd : d = c
  · subst hd
    simp only [beq_self_eq_true, if_true]
    omega
  · simp [hd, Ne.symm hd]

/-- The connection is made, and the requester accepts the request. -/
theorem connected {i : Nat} {c : ConnId} (hd : Delivers s i (.connect c) none u)
    (ht : OnSocket c u t) : Calm s (t.beginRequest c) := by
  have hclaims : ∀ op, (t.beginRequest c).claims op + (if op = .client c then 1 else 0) ≤
      s.claims op := by
    intro op
    rw [hd.claims op]
    refine Nat.add_le_add (ht.claims_le op) (Nat.le_of_eq ?_)
    simp [AsyncOp.operation, Handler.isWait, Handler.operation, eq_comm]
  have hrest := hd.rest
  refine of_live ?_ (fun d => ?_) (fun d => ?_) (fun op _ => ?_) ?_ (fun q hq => ?_) [] ?_
    (by simp)
  · show (t.timers, t.contexts) = _
    rw [ht.timers, ht.contexts, hrest]
  · rw [State.beginRequest_conns]
    by_cases hdc : d = c
    · subst hdc
      rw [Function.update_self, ht.maker, hrest]
    · rw [Function.update_of_ne hdc, ht.maker, hrest]
  · have hd := hclaims (.client d)
    have hprog : (t.beginRequest c).inProgress.count d =
        s.inProgress.count d + if d = c then 1 else 0 := by
      rw [State.beginRequest_inProgress, List.count_append, List.count_singleton, ht.inProgress,
        hrest]
      simp only [beq_iff_eq, eq_comm (a := c)]
    simp only [State.live, hprog, Operation.client.injEq] at hd ⊢
    omega
  · exact Nat.le_trans (Nat.le_add_right _ _) (hclaims op)
  · show (t.server.requests, t.server.responseContext) = _
    rw [ht.server, hrest]
  · show t.paused q = true
    rw [ht.paused, hrest]
    exact hq
  · show t.trace = _
    rw [ht.trace, hrest, List.append_nil]

/-! ### New objects -/

theorem startPeriodic (s : State) (u : TimerId) (time : Milliseconds) (task : Task) :
    Calm s (TimerService.startPeriodic s u time task) :=
  (((use s (.timer u)).trans (queueStop _ _ _)).trans (abort _ _)).trans
    (async (h := .periodic u time task) _ rfl time)

theorem timerMake (hreg : Registered s) (maker : Option RequestId) :
    Calm s (Timer.make s maker) := by
  have hemplace : ∀ timer : TimerService, Calm s (s.emplaceTimer timer) := by
    intro timer
    refine ⟨fun op q hmaker => ?_, fun _ => ⟨Nat.le_refl _, rfl⟩, rfl, fun _ => id, fun _ => id,
      ⟨[], (List.append_nil _).symm, by simp⟩⟩
    cases op with
    | client c => exact Or.inr ⟨hmaker, Nat.le_refl _⟩
    | task p => exact Or.inr ⟨hmaker, Nat.le_refl _⟩
    | periodic u => exact Or.inl rfl
    | oneShot u =>
      by_cases hu : u = s.timerCount
      · left
        exact hreg.claims_eq_zero (hu ▸ Nat.lt_irrefl _)
      · right
        rw [State.maker, State.emplaceTimer_timers, Function.update_of_ne hu] at hmaker
        exact ⟨hmaker, Nat.le_refl _⟩
  cases maker with
  | none => exact hemplace _
  | some r =>
    by_cases hr : s.server.responseContext = some r
    · rw [Timer.make_current hr]
      exact hemplace _
    · rw [Timer.make_expired hr]
      exact congr rfl rfl [] (List.append_nil _).symm (by simp)

/-- A request is prepared; the timeout it starts has no maker. -/
theorem prepareRequest (hreg : Registered s) (k : ClientRef) (maker : Option RequestId)
    (overload : Overload) (timeout : Milliseconds) :
    Calm s (ClientService.prepareRequest s k maker overload timeout) := by
  have hclaims : ∀ op, (ClientService.prepareRequest s k maker overload timeout).claims op ≤
      s.claims op + if op = .oneShot s.timerCount then 1 else 0 := by
    intro op
    exact State.claims_timerStart_le (((s.use (.client k)).queueStop maker
      (k.queue s.clientQueue)).emplaceTimer { owner := .client k }) op s.timerCount timeout
      (.cancelRequest s.connCount)
  refine ⟨fun op q hmaker => ?_, fun p => ⟨hclaims _, rfl⟩, rfl, fun _ => id, fun q hq => ?_,
    ⟨_, ClientService.prepareRequest_trace .., by simp [Event.isMild]⟩⟩
  · cases op with
    | periodic u => exact Or.inl rfl
    | task p => exact Or.inr ⟨hmaker, Nat.le_refl _⟩
    | oneShot u =>
      rw [State.maker, ClientService.prepareRequest_timers] at hmaker
      by_cases hu : u = s.timerCount
      · subst hu
        rw [Function.update_self] at hmaker
        cases hmaker
      · rw [Function.update_of_ne hu] at hmaker
        have := hclaims (.oneShot u)
        rw [if_neg (by simpa using hu)] at this
        exact Or.inr ⟨hmaker, this⟩
    | client c =>
      have hle : (ClientService.prepareRequest s k maker overload timeout).live (.client c) ≤
          s.live (.client c) := Nat.add_le_add_right (hclaims _) _
      by_cases hc : c = s.connCount
      · left
        have hzero : s.live (.client c) = 0 := by
          subst hc
          refine Nat.add_eq_zero_iff.mpr ⟨hreg.claims_eq_zero (Nat.lt_irrefl _), ?_⟩
          exact List.count_eq_zero.mpr fun hmem => Nat.lt_irrefl _ (hreg.inProgress _ hmem)
        omega
      · rw [State.maker, ClientService.prepareRequest_conns, Function.update_of_ne hc] at hmaker
        exact Or.inr ⟨hmaker, hle⟩
  · rw [ClientService.prepareRequest_paused]
    exact (queueStop s maker (k.queue s.clientQueue)).paused q hq

end Calm

theorem Calm.outstanding_eq_nil {s t : State} {q : RequestId} (hc : Calm s t)
    (h : outstanding q s.trace = []) : outstanding q t.trace = [] := by
  obtain ⟨es, htrace, hes⟩ := hc.trace
  rw [htrace]
  exact List.sublist_nil.mp (h ▸ (outstanding_mild hes).1)

namespace Pauses

variable {s t u : State} {op : Operation} {q : RequestId} {p : PostId}

theorem calm (h : Pauses s) (hc : Calm s t) : Pauses t := by
  obtain ⟨es, htrace, hes⟩ := hc.trace
  have hmild : ∀ q, (outstanding q t.trace).Sublist (outstanding q s.trace) ∧
      ∀ op, (∀ u, op ≠ .periodic u) →
        (outstanding q t.trace).count op = (outstanding q s.trace).count op := by
    intro q
    rw [htrace]
    exact outstanding_mild hes
  have hsome : ∀ q, outstanding q t.trace ≠ [] → outstanding q s.trace ≠ [] := by
    intro q hne hnil
    exact hne (List.sublist_nil.mp (hnil ▸ (hmild q).1))
  constructor
  · exact fun q => Nat.le_trans (hmild q).1.length_le (h.single q)
  · intro q hne
    rw [hc.requests]
    exact h.delivered q (hsome q hne)
  · intro q hq
    rw [hc.requests]
    exact h.context q (hc.context q hq)
  · intro op q hmaker
    have hle : (∀ u, op ≠ .periodic u) → t.live op ≤ (outstanding q t.trace).count op := by
      intro hop
      rw [(hmild q).2 op hop]
      rcases hc.live op q hmaker with hzero | ⟨hmaker, hle⟩
      · omega
      · exact Nat.le_trans hle (h.live op q hmaker)
    cases op with
    | periodic u => exact Nat.zero_le _
    | client c => exact hle nofun
    | oneShot u => exact hle nofun
    | task p => exact hle nofun
  · intro p
    rw [(hc.held p).2]
    exact Nat.le_trans (hc.held p).1 (h.held p)
  · exact fun q hq hne => hc.paused q (h.paused q (hc.context q hq) (hsome q hne))
  · rw [htrace]
    exact h.idle.append hes

/-- An operation that is to complete is the only outstanding one of its request. -/
theorem outstanding_eq (h : Pauses s) (hmaker : s.maker op = some q) (hlive : 0 < s.live op) :
    outstanding q s.trace = [op] := by
  have hsingle := h.single q
  have hmem : op ∈ outstanding q s.trace :=
    List.count_pos_iff.mp (Nat.lt_of_lt_of_le hlive (h.live op q hmaker))
  match hout : outstanding q s.trace with
  | [] => simp [hout] at hmem
  | [op'] =>
    rw [hout, List.mem_singleton] at hmem
    rw [hmem]
  | _ :: _ :: _ => simp [hout] at hsingle

/-! ### Starts -/

/-- An operation is started; a request starts it while nothing of the request is outstanding and its
queue is paused. -/
theorem started (h : Pauses s) {maker : Option RequestId}
    (htrace : t.trace = s.trace ++ [.started maker op]) (hserver : t.server = s.server)
    (hpaused : t.paused = s.paused)
    (hothers : ∀ op' r, op' ≠ op → t.maker op' = some r →
      s.maker op' = some r ∧ t.live op' ≤ s.live op')
    (hmaker : t.maker op = maker) (hlive : ∀ q, maker = some q → t.live op ≤ 1)
    (hheld : ∀ p, t.claims (.task p) ≤ if (t.contexts p).held then 1 else 0)
    (hstart : ∀ q, maker = some q → outstanding q s.trace = [] ∧
      s.server.responseContext = some q ∧ s.paused q = true) : Pauses t := by
  have hout : ∀ r, outstanding r t.trace =
      if maker = some r then outstanding r s.trace ++ [op] else outstanding r s.trace := by
    intro r
    rw [htrace, outstanding_concat, Event.track]
  constructor
  · intro r
    rw [hout]
    split
    next hr => simp [(hstart r hr).1]
    next => exact h.single r
  · intro r hne
    rw [hserver]
    by_cases hr : maker = some r
    · exact h.context r (hstart r hr).2.1
    · rw [hout, if_neg hr] at hne
      exact h.delivered r hne
  · rw [hserver]
    exact h.context
  · intro op' r hmaker'
    rw [hout]
    by_cases hop : op' = op
    · subst hop
      have hr : maker = some r := hmaker.symm.trans hmaker'
      rw [if_pos hr, List.count_append, List.count_singleton_self]
      exact Nat.le_trans (hlive r hr) (Nat.le_add_left _ _)
    · obtain ⟨hmaker', hle⟩ := hothers op' r hop hmaker'
      refine Nat.le_trans hle (Nat.le_trans (h.live op' r hmaker') ?_)
      split
      · rw [List.count_append]
        exact Nat.le_add_right _ _
      · exact Nat.le_refl _
  · exact hheld
  · intro r hr hne
    rw [hpaused]
    rw [hserver] at hr
    by_cases hmr : maker = some r
    · exact (hstart r hmr).2.2
    · rw [hout, if_neg hmr] at hne
      exact h.paused r hr hne
  · rw [htrace]
    refine h.idle.concat fun q hq => ?_
    cases hq

/-- An operation is started that a handler completes, or a periodic timer. -/
theorem async (h : Pauses s) {maker : Option RequestId} {k : Handler}
    (hk : ∀ op', k.operation = some op' → op' = op) (hop : ∀ p, op ≠ .task p)
    (hmaker : s.maker op = maker)
    (hstart : ∀ q, maker = some q → outstanding q s.trace = [] ∧
      s.server.responseContext = some q ∧ s.paused q = true) (delay : Milliseconds) :
    Pauses ((s.async k delay).emit [.started maker op]) := by
  have hclaims : ∀ op', (s.async k delay).claims op' ≤
      s.claims op' + if op' = op then 1 else 0 := by
    intro op'
    rw [s.claims_async op' k delay]
    refine Nat.add_le_add_left ?_ _
    split
    next hk' => exact Nat.le_of_eq (if_pos (hk op' hk')).symm
    next => exact Nat.zero_le _
  have hlive : ∀ op', ((s.async k delay).emit [.started maker op]).live op' ≤
      s.live op' + if op' = op then 1 else 0 := by
    intro op'
    cases op' with
    | periodic u => exact Nat.zero_le _
    | oneShot u => exact hclaims _
    | task p => exact Nat.le_add_right _ _
    | client c =>
      have hprog := Nat.add_le_add_right (hclaims (.client c)) (s.inProgress.count c)
      show (s.async k delay).claims _ + s.inProgress.count c ≤
        s.claims _ + s.inProgress.count c + _
      omega
  refine h.started rfl rfl rfl (fun op' r hop' hmaker' => ⟨hmaker', ?_⟩) hmaker (fun q hq => ?_)
    (fun p => ?_) hstart
  · have := hlive op'
    rwa [if_neg hop'] at this
  · have hzero := h.live op q (hmaker.trans hq)
    rw [(hstart q hq).1] at hzero
    have := hlive op
    rw [if_pos rfl] at this
    exact Nat.le_trans this (Nat.add_le_add_right hzero 1)
  · refine Nat.le_trans ?_ (h.held p)
    have := hclaims (.task p)
    rwa [if_neg (hop p).symm] at this

/-- A timer is started, through the queue of its own request. -/
theorem timerStart (h : Pauses s) (howners : Owners s) {k : Handler}
    (hk : ∀ op', k.operation = some op' → op' = op) {u : TimerId}
    (hop : op = .oneShot u ∨ op = .periodic u)
    (hcurrent : ∀ q, (s.timers u).maker = some q → s.server.responseContext = some q)
    (hidle : ∀ q, (s.timers u).maker = some q → outstanding q s.trace = [])
    (delay : Milliseconds) :
    Pauses ((((TimerService.stopQueue s u).cancelTimer u).async k delay).emit
      [.started (s.timers u).maker op]) := by
  have hstop : Calm s ((TimerService.stopQueue s u).cancelTimer u) :=
    ((Calm.use s (.timer u)).trans (Calm.queueStop _ _ _)).trans (Calm.abort _ _)
  refine (h.calm hstop).async hk ?_ ?_ (fun q hq => ⟨?_, hcurrent q hq, ?_⟩) delay
  · intro p hp
    rcases hop with rfl | rfl <;> cases hp
  · rcases hop with rfl | rfl <;> rfl
  · exact hstop.outstanding_eq_nil (hidle q hq)
  · show s.server.setPaused s.paused (s.timers u).requestProcessorQueue true q = true
    have hlock : s.server.lock (s.timers u).requestProcessorQueue = some q :=
      Server.lock_eq_some.mpr ⟨(howners.timers u).trans hq, hcurrent q hq⟩
    rw [Server.setPaused, if_pos hlock]

/-- A client request is made, on the queue of its own request. -/
theorem makeRequest (h : Pauses s) (hreg : Registered s) (howners : Owners s)
    {client : ClientHandle}
    (hcurrent : ∀ q, client.maker = some q → s.server.responseContext = some q)
    (hidle : ∀ q, client.maker = some q → outstanding q s.trace = [])
    (overload : Overload) (timeout : Milliseconds) :
    Pauses ((ClientService.makeRequest s client.service client.maker overload true timeout).emit
      [.started client.maker (.client s.connCount)]) := by
  have hprepare := Calm.prepareRequest hreg client.service client.maker overload timeout
  have hopen := hprepare.trans (Calm.onSocket (ClientConnection.onSocket_opened _ s.connCount))
  refine (h.calm hopen).async (k := .connect s.connCount) ?_ (fun _ => Operation.noConfusion) ?_
    (fun q hq => ⟨?_, hcurrent q hq, ?_⟩) 0
  · intro op' hop'
    exact (Option.some.inj hop').symm
  · rw [State.maker, State.setConn_conns, Function.update_self, State.use_conns,
      ClientService.prepareRequest_conns, Function.update_self]
  · exact hopen.outstanding_eq_nil (hidle q hq)
  · show (ClientService.prepareRequest s client.service client.maker overload timeout).paused q
      = true
    rw [ClientService.prepareRequest_paused, Server.setPaused, if_pos]
    rw [Server.lock_eq_some]
    cases client with
    | io n => cases hq
    | responder r =>
      exact ⟨(howners.current q (hcurrent q hq)).2.1, hcurrent q hq⟩

/-- A task is posted, on the queue of its own request. -/
theorem postTask (h : Pauses s) (hreg : Registered s) (howners : Owners s)
    {maker : Option RequestId}
    (hcurrent : ∀ q, maker = some q → s.server.responseContext = some q)
    (hidle : ∀ q, maker = some q → outstanding q s.trace = []) :
    Pauses
      ((AsioDispatcherService.postTask s maker).emit [.started maker (.task s.postCount)]) := by
  have hstop := Calm.queueStop s maker (s.server.lock (maker.bind fun _ => s.dispatcherQueue))
  have hclaims : ∀ op, (AsioDispatcherService.postTask s maker).claims op =
      s.claims op + if op = .task s.postCount then 1 else 0 := by
    intro op
    rw [State.claims, State.claims, AsioDispatcherService.postTask_ops, List.countP_append,
      List.countP_singleton, AsioDispatcherService.postTask_stack]
    have hop : (AsyncOp.mk (.postedTask s.postCount) (.done none) 0).operation = some op ↔
        op = .task s.postCount := by
      simp [AsyncOp.operation, Handler.isWait, Handler.operation, eq_comm]
    simp only [hop, decide_eq_true_eq]
    omega
  have hmaker : ∀ op r, op ≠ .task s.postCount →
      ((AsioDispatcherService.postTask s maker).emit
        [.started maker (.task s.postCount)]).maker op = some r → s.maker op = some r ∧
      (AsioDispatcherService.postTask s maker).live op ≤ s.live op := by
    intro op r hop hr
    have hle := hclaims op
    rw [if_neg hop, Nat.add_zero] at hle
    cases op with
    | client c => exact ⟨hr, Nat.le_of_eq (congrArg (· + s.inProgress.count c) hle)⟩
    | oneShot u => exact ⟨hr, Nat.le_of_eq hle⟩
    | periodic u => exact ⟨hr, Nat.le_refl _⟩
    | task p =>
      have hp : p ≠ s.postCount := fun hp => hop (congrArg _ hp)
      rw [State.maker, State.emit_contexts, AsioDispatcherService.postTask_contexts,
        Function.update_of_ne hp] at hr
      rw [State.live, State.live, AsioDispatcherService.postTask_contexts,
        Function.update_of_ne hp]
      exact ⟨hr, Nat.le_refl _⟩
  have htrace : ((AsioDispatcherService.postTask s maker).emit
      [.started maker (.task s.postCount)]).trace =
        (s.queueStop maker (s.server.lock (maker.bind fun _ => s.dispatcherQueue))).trace ++
          [.started maker (.task s.postCount)] := rfl
  refine (h.calm hstop).started htrace rfl
    (AsioDispatcherService.postTask_paused s maker) hmaker ?_ (fun q hq => ?_) (fun p => ?_)
    (fun q hq => ⟨hstop.outstanding_eq_nil (hidle q hq), hcurrent q hq, ?_⟩)
  · rw [State.maker, State.emit_contexts, AsioDispatcherService.postTask_contexts,
      Function.update_self]
  · rw [State.live]
    split <;> decide
  · show (AsioDispatcherService.postTask s maker).claims (.task p) ≤ _
    rw [hclaims, State.emit_contexts, AsioDispatcherService.postTask_contexts]
    by_cases hp : p = s.postCount
    · subst hp
      refine Nat.le_of_eq ?_
      rw [hreg.claims_eq_zero (Nat.lt_irrefl _), Function.update_self, if_pos rfl, if_pos rfl]
    · rw [if_neg (by simpa using hp), Function.update_of_ne hp]
      exact h.held p
  · show s.server.setPaused s.paused (s.server.lock (maker.bind fun _ => s.dispatcherQueue)) true q
      = true
    rw [Server.setPaused, Server.lock_lock, if_pos]
    rw [hq]
    exact Server.lock_eq_some.mpr ⟨(howners.current q (hcurrent q hq)).2.2, hcurrent q hq⟩

/-! ### Completions -/

/-- A queue is launched while nothing of its request is outstanding. -/
theorem queueLaunch (h : Pauses s) {maker : Option RequestId} {queue : Option RequestId}
    (hidle : ∀ q ∈ queue, outstanding q s.trace = []) : Pauses (s.queueLaunch maker queue) := by
  have hout : ∀ r, outstanding r (s.queueLaunch maker queue).trace = outstanding r s.trace := by
    intro r
    rw [State.queueLaunch_trace]
    cases queue with
    | none => simp
    | some q => exact outstanding_concat
  have hclaims : ∀ op, (s.queueLaunch maker queue).claims op = s.claims op := by
    intro op
    refine (s.claims_push op ((s.server.lock queue).toList.map .launch)).trans ?_
    rw [List.countP_eq_zero.mpr, Nat.add_zero]
    intro f hf
    obtain ⟨r, -, rfl⟩ := List.mem_map.mp hf
    simp [Frame.operation]
  have hlive : ∀ op, (s.queueLaunch maker queue).live op = s.live op := by
    intro op
    cases op with
    | client c =>
      show _ + s.inProgress.count c = _ + s.inProgress.count c
      rw [hclaims]
    | oneShot u => exact hclaims _
    | periodic | task => rfl
  constructor
  · intro r
    rw [hout]
    exact h.single r
  · intro r hne
    rw [hout] at hne
    exact h.delivered r hne
  · exact h.context
  · intro op r hmaker
    rw [hout, hlive]
    exact h.live op r hmaker
  · intro p
    rw [hclaims]
    exact h.held p
  · intro r hr hne
    rw [hout] at hne
    rw [State.queueLaunch_paused, Server.setPaused]
    split
    next hlock =>
      obtain ⟨hqueue, -⟩ := Server.lock_eq_some.mp hlock
      exact absurd (hidle r hqueue) hne
    next => exact h.paused r hr hne
  · rw [State.queueLaunch_trace]
    cases queue with
    | none => simpa using h.idle
    | some q =>
      refine h.idle.concat fun r hr => ?_
      obtain rfl := Option.some.inj hr
      exact hidle q rfl

/-- The completion callback of an operation has returned. -/
theorem returned (h : Pauses s) {f : Frame} {fs : List Frame} (hstack : s.stack = f :: fs)
    (hf : f.operation = some op) (hop : ∀ p, op ≠ .task p) :
    Pauses ({ s with stack := fs }.emit [.returned op]) ∧
      ∀ q, s.maker op = some q → outstanding q (s.trace ++ [.returned op]) = [] := by
  have hclaims : ∀ op', s.claims op' =
      { s with stack := fs }.claims op' + if op = op' then 1 else 0 := by
    intro op'
    simp only [State.claims, hstack, List.countP_cons, hf, Option.some.injEq, decide_eq_true_eq]
    omega
  have hlive : ∀ op', { s with stack := fs }.live op' + (if op = op' then 1 else 0) ≤
      s.live op' := by
    intro op'
    cases op' with
    | client c =>
      show { s with stack := fs }.claims _ + s.inProgress.count c + _ ≤ s.claims _ + _
      rw [hclaims]
      omega
    | oneShot u => exact Nat.le_of_eq (hclaims _).symm
    | periodic u =>
      rw [if_neg]
      · exact Nat.le_refl _
      · rintro rfl
        cases f <;> cases hf
    | task p =>
      rw [if_neg (hop p)]
      exact Nat.le_refl _
  have hout : ∀ r, outstanding r (s.trace ++ [.returned op]) = (outstanding r s.trace).erase op :=
    fun r => outstanding_concat
  have hsome : ∀ r,
      outstanding r (s.trace ++ [.returned op]) ≠ [] → outstanding r s.trace ≠ [] := by
    intro r hne hnil
    rw [hout, hnil] at hne
    exact hne rfl
  refine ⟨⟨fun r => ?_, fun r hne => h.delivered r (hsome r hne), h.context, fun op' r hmaker => ?_,
    fun p => ?_, fun r hr hne => h.paused r hr (hsome r hne), h.idle.concat nofun⟩, fun q hq => ?_⟩
  · show (outstanding r (s.trace ++ _)).length ≤ 1
    rw [hout]
    exact Nat.le_trans List.erase_sublist.length_le (h.single r)
  · show { s with stack := fs }.live op' ≤ (outstanding r (s.trace ++ _)).count op'
    have hbefore := h.live op' r hmaker
    have hafter := hlive op'
    rw [hout, List.count_erase]
    simp only [beq_iff_eq]
    omega
  · refine Nat.le_trans ?_ (h.held p)
    show { s with stack := fs }.claims _ ≤ _
    rw [hclaims (.task p)]
    exact Nat.le_add_right _ _
  · have hpos := hlive op
    rw [if_pos rfl] at hpos
    rw [hout, h.outstanding_eq hq (by omega), List.erase_cons_head]

/-- A timer is stopped while nothing but its own periodic wait is outstanding. -/
theorem timerStop (h : Pauses s) {u : TimerId}
    (hstop : ∀ q ∈ (s.timers u).requestProcessorQueue, ∀ op ∈ outstanding q s.trace,
      op = .periodic u) : Pauses (TimerService.stop s u) := by
  have hcancel : Calm s ((s.use (.timer u)).cancelTimer u) :=
    (Calm.use s (.timer u)).trans (Calm.abort _ _)
  have hemit := h.calm (hcancel.trans (Calm.emit _ [.timerStopped u] (by simp [Event.isMild])))
  refine hemit.queueLaunch fun q hq => ?_
  show outstanding q (s.trace ++ [.timerStopped u]) = []
  rw [outstanding_concat, Event.track, List.filter_eq_nil_iff]
  intro op hop
  simpa using hstop q hq op hop

/-! ### Posted tasks -/

/-- The copies of a context that is not destroyed yet change. -/
theorem setContext (h : Pauses s) {context : PostAction}
    (hmaker : context.maker = (s.contexts p).maker)
    (hlive : (s.contexts p).held ∨ 0 < (s.contexts p).copies)
    (hheld : s.claims (.task p) ≤ if context.held then 1 else 0) :
    Pauses (TaskContext.setContext s p context) := by
  refine ⟨h.single, h.delivered, h.context, fun op q hq => ?_, fun p' => ?_, h.paused, h.idle⟩
  · cases op with
    | client c => exact h.live (.client c) q hq
    | oneShot u => exact h.live (.oneShot u) q hq
    | periodic u => exact h.live (.periodic u) q hq
    | task p' =>
      rw [State.maker, TaskContext.setContext_contexts] at hq
      by_cases hp : p' = p
      · subst hp
        rw [Function.update_self, hmaker] at hq
        refine Nat.le_trans ?_ (h.live (.task p') q hq)
        rw [State.live, State.live, if_pos hlive]
        split <;> decide
      · rw [Function.update_of_ne hp] at hq
        refine Nat.le_trans (Nat.le_of_eq ?_) (h.live (.task p') q hq)
        rw [State.live, State.live, TaskContext.setContext_contexts, Function.update_of_ne hp]
  · rw [TaskContext.setContext_contexts]
    by_cases hp : p' = p
    · subst hp
      rw [Function.update_self]
      exact hheld
    · rw [Function.update_of_ne hp]
      exact h.held p'

/-- The last copy of a context is destroyed. -/
theorem destroyContext (h : Pauses s) (howners : Owners s) {context : PostAction}
    (hmaker : context.maker = (s.contexts p).maker)
    (hobserver : context.queueObserver = (s.contexts p).queueObserver)
    (hlive : (s.contexts p).held ∨ 0 < (s.contexts p).copies)
    (hlast : context.held = false ∧ context.copies = 0) (hclaims : s.claims (.task p) = 0) :
    Pauses (TaskContext.destroy (TaskContext.setContext s p context) p) := by
  have hset := h.setContext hmaker hlive (by rw [hclaims]; exact Nat.zero_le _)
  generalize hu : TaskContext.setContext s p context = u at hset ⊢
  have hcontext : u.contexts p = context := by
    rw [← hu, TaskContext.setContext_contexts, Function.update_self]
  have htrace : u.trace = s.trace := by rw [← hu, TaskContext.setContext_trace]
  have hout : ∀ r, outstanding r (u.trace ++ [.contextDestroyed p]) =
      (outstanding r u.trace).filter (· ≠ .task p) := fun r => outstanding_concat
  have hsub : ∀ r, (outstanding r (u.trace ++ [.contextDestroyed p])).Sublist
      (outstanding r u.trace) := fun r => hout r ▸ List.filter_sublist
  have hsome : ∀ r, outstanding r (u.trace ++ [.contextDestroyed p]) ≠ [] →
      outstanding r u.trace ≠ [] := by
    intro r hne hnil
    exact hne (List.sublist_nil.mp (hnil ▸ hsub r))
  have hemit : Pauses (u.emit [.contextDestroyed p]) := by
    refine ⟨fun r => ?_, fun r hne => hset.delivered r (hsome r hne), hset.context,
      fun op r hr => ?_, hset.held, fun r hr hne => hset.paused r hr (hsome r hne),
      hset.idle.concat nofun⟩
    · exact Nat.le_trans (hsub r).length_le (hset.single r)
    · show u.live op ≤ (outstanding r (u.trace ++ _)).count op
      rw [hout]
      by_cases hop : op = .task p
      · subst hop
        rw [State.live, hcontext, hlast.1, hlast.2]
        exact Nat.zero_le _
      · rw [List.count_filter (by simpa using hop)]
        exact hset.live op r hr
  have hpush := hemit.calm (Calm.push _ ((u.server.lock (u.contexts p).queueObserver).toList.map
    fun _ => .postAction p) (by simp [Frame.operation]))
  refine hpush.queueLaunch fun q hq => ?_
  show outstanding q (u.trace ++ [.contextDestroyed p]) = []
  -- the queue is that of the request that posted the task
  have hobserved : (s.contexts p).queueObserver = some q := by
    rw [← hobserver, ← hcontext]
    exact (Server.lock_eq_some.mp hq).1
  have hone : outstanding q s.trace = [.task p] := by
    refine h.outstanding_eq (howners.contexts p q hobserved) ?_
    rw [State.live, if_pos hlive]
    exact Nat.zero_lt_one
  rw [hout, htrace, hone]
  simp

/-- The copy of a context in a posted closure is destroyed. -/
theorem releaseHeld (h : Pauses s) (howners : Owners s) (hheld : (s.contexts p).held = true)
    (hclaims : s.claims (.task p) = 0) : Pauses (TaskContext.releaseHeld s p) := by
  by_cases hlast : (s.contexts p).copies = 0
  · rw [TaskContext.releaseHeld_last hlast]
    exact h.destroyContext howners rfl rfl (Or.inl hheld) ⟨rfl, hlast⟩ hclaims
  · rw [TaskContext.releaseHeld_shared hlast]
    exact h.setContext rfl (Or.inl hheld) (by rw [hclaims]; exact Nat.zero_le _)

/-- A copy of a context of the user's is destroyed. -/
theorem release (h : Pauses s) (howners : Owners s) (hcopies : 0 < (s.contexts p).copies) :
    Pauses (TaskContext.release s p) := by
  by_cases hlast : (s.contexts p).copies ≤ 1 ∧ (s.contexts p).held = false
  · rw [TaskContext.release_last hlast]
    have hheld := h.held p
    rw [hlast.2] at hheld
    refine h.destroyContext howners rfl rfl (Or.inr hcopies) ⟨hlast.2, ?_⟩ (Nat.le_zero.mp hheld)
    exact Nat.sub_eq_zero_of_le hlast.1
  · rw [TaskContext.release_shared hlast]
    exact h.setContext rfl (Or.inr hcopies) (h.held p)

/-- The closure of a task that was called, or never will be, gives up its copy of the context. -/
theorem held_of_claims (h : Pauses s) (hclaims : s.claims (.task p) = t.claims (.task p) + 1) :
    (s.contexts p).held = true ∧ t.claims (.task p) = 0 := by
  have hheld := h.held p
  cases hh : (s.contexts p).held with
  | false =>
    rw [hh] at hheld
    exact absurd hheld (by rw [hclaims]; exact Nat.not_succ_le_zero _)
  | true =>
    rw [hh, if_pos rfl] at hheld
    exact ⟨rfl, by omega⟩

theorem unwind (what : Option String) (catcher : Option Nat) (fs : List Frame)
    (h : Pauses { s with stack := fs }) (howners : Owners s) :
    Pauses (State.unwind what catcher fs s) := by
  induction fs generalizing s with
  | nil => exact h.calm (Calm.emit _ _ (by simp [Event.isMild]))
  | cons f fs ih =>
    have htail : Pauses { s with stack := fs } :=
      h.calm (Calm.pops { s with stack := f :: fs } (List.suffix_cons f fs))
    cases f
    case user code =>
      unfold State.unwind
      split
      · exact h
      · exact ih htail howners
    case tryBlock r =>
      obtain ⟨_, _, _, hserver⟩ := s.server.sendError_eq
      refine htail.calm (Calm.congr rfl ?_ [] (List.append_nil _).symm (by simp))
      show (s.server.sendError.requests, s.server.sendError.responseContext) = _
      rw [hserver]
    case postAction p =>
      exact htail.calm (Calm.of_claims rfl (fun _ => rfl)
        (fun _ => Nat.add_le_add_left (Nat.zero_le _) _) (fun _ => Nat.le_refl _) rfl (fun _ => id)
        [.terminated] rfl (by simp [Event.isMild]))
    case taskHandler p =>
      have hclaims : { s with stack := .taskHandler p :: fs }.claims (.task p) =
          { s with stack := fs }.claims (.task p) + 1 := by
        simp [State.claims, Frame.operation, Nat.add_assoc]
      have hheld := h.held_of_claims hclaims
      unfold State.unwind
      split
      · have hpush := htail.calm (Calm.push _ [.rethrow what] (by simp [Frame.operation]))
        refine Pauses.releaseHeld (s := { s with stack := .rethrow what :: fs }) hpush
          (howners.withStack _) hheld.1 ?_
        simpa [State.claims, Frame.operation] using hheld.2
      next hno =>
        refine ih ?_ (howners.releaseHeld p)
        rw [TaskContext.releaseHeld_withStack hno]
        exact htail.releaseHeld (howners.withStack _) hheld.1 hheld.2
    all_goals exact ih htail howners

/-! ### The steps of the runtime -/

/-- A new request has no operation, and its queue is not paused. -/
theorem processRequest (h : Pauses s) : Pauses (Connection.processRequest s .router) := by
  have hfresh : outstanding s.server.requests s.trace = [] := by
    by_contra hne
    exact Nat.lt_irrefl _ (h.delivered _ hne)
  have hout : ∀ r, outstanding r (Connection.processRequest s .router).trace =
      outstanding r s.trace := fun r => outstanding_concat
  have hclaims : ∀ op, (Connection.processRequest s .router).claims op = s.claims op := by
    intro op
    simp [Connection.processRequest, State.claims, Frame.operation]
  have hlive : ∀ op, (Connection.processRequest s .router).live op = s.live op := by
    intro op
    cases op with
    | client c => exact congrArg (· + s.inProgress.count c) (hclaims _)
    | oneShot u => exact hclaims _
    | periodic | task => rfl
  constructor
  · intro r
    rw [hout]
    exact h.single r
  · intro r hne
    rw [hout] at hne
    exact Nat.lt_succ_of_lt (h.delivered r hne)
  · intro r hr
    obtain rfl : s.server.requests = r := by simpa [Connection.processRequest] using hr
    exact Nat.lt_succ_self _
  · intro op r hr
    rw [hout, hlive]
    exact h.live op r hr
  · intro p
    rw [hclaims]
    exact h.held p
  · intro r hr hne
    obtain rfl : s.server.requests = r := by simpa [Connection.processRequest] using hr
    rw [hout] at hne
    exact absurd hfresh hne
  · exact h.idle.append (List.forall_mem_singleton.mpr (by simp [Event.isMild]))

/-- A launch runs a processor; the queue is not paused, so nothing is outstanding. -/
theorem runProcessor (h : Pauses s) (hstacked : s.Stacked) {fs : List Frame}
    (hstack : s.stack = .launch q :: fs) (hq : s.paused q = false) :
    Pauses ((s.emit [.processor q]).push [.user (.processor q)]) := by
  rw [State.Stacked, hstack] at hstacked
  have hidle : outstanding q s.trace = [] := by
    by_contra hne
    have := h.paused q hstacked.1 hne
    rw [hq] at this
    cases this
  have hout : ∀ r, outstanding r (s.trace ++ [.processor q]) = outstanding r s.trace :=
    fun r => outstanding_concat
  have hemit : Pauses (s.emit [.processor q]) := by
    refine ⟨fun r => ?_, fun r hne => ?_, h.context, fun op r hr => ?_, h.held, fun r hr hne => ?_,
      h.idle.concat fun r hr => ?_⟩
    · exact Nat.le_trans (Nat.le_of_eq (congrArg List.length (hout r))) (h.single r)
    · exact h.delivered r (hout r ▸ hne)
    · exact Nat.le_trans (h.live op r hr) (Nat.le_of_eq (congrArg _ (hout r).symm))
    · exact h.paused r hr (hout r ▸ hne)
    · obtain rfl := Option.some.inj hr
      exact hidle
  exact hemit.calm (Calm.push _ _ (by simp [Frame.operation]))

theorem command (h : Pauses s) (hreg : Registered s) (howners : Owners s) {c : Command}
    (hcaller : CallerIsCurrent s (.command c)) (hone : OneAtATime s (.command c))
    (hc : CommandStep s c t) : Pauses t := by
  cases hc with
  | makeTimer => exact h.calm (Calm.timerMake hreg _)
  | @start u _ callback =>
    exact h.timerStart howners (k := .oneShot u (.user callback)) (by simp [Handler.operation])
      (Or.inl rfl) hcaller hone.start _
  | @startPeriodic u time callback =>
    exact h.timerStart howners (k := .periodic u time (.user callback)) nofun (Or.inr rfl) hcaller
      hone.start _
  | @waitFuture u f checkPeriod =>
    exact h.timerStart howners (k := .periodic u checkPeriod (.checkFuture f)) nofun (Or.inr rfl)
      hcaller hone.start _
  | @stop u =>
    refine h.timerStop fun q hq => ?_
    rw [howners.timers u] at hq
    exact hone.stop u rfl q hq
  | destroyTimer | disconnect | destroyClient => exact h.calm (Calm.destroy s _ _)
  | makeClient => exact h.calm (Calm.congr rfl rfl [] (List.append_nil _).symm (by simp))
  | makeRequest => exact h.makeRequest hreg howners hcaller hone.start _ _
  | makeRequestThrows => exact h.calm (Calm.prepareRequest hreg _ _ _ _)
  | postTask => exact h.postTask hreg howners hcaller hone.start
  | @copyContext p _ hlive => exact h.setContext rfl hlive (h.held p)
  | releaseContext _ hlive => exact h.release howners hlive
  | send => exact h.calm (Calm.send s _ _)

theorem step (h : Pauses s) (hreg : Registered s) (hstacked : s.Stacked) (howners : Owners s)
    {l : Label} (hl : l.IsRouted) (hcaller : CallerIsCurrent s l) (hone : OneAtATime s l)
    (hstep : Step s l t) : Pauses t := by
  have hpop : ∀ {f fs}, s.stack = f :: fs → Calm s { s with stack := fs } := by
    intro f fs hstack
    exact Calm.pops s (hstack ▸ List.suffix_cons f fs)
  cases hstep with
  | @processRequest processor =>
    cases processor with
    | router => exact h.processRequest
    | function => exact absurd rfl hl
  | @destroyConnection closeErrors =>
    have hdestroy := Calm.destroy s s.connectionMembers closeErrors
    refine h.calm ⟨hdestroy.live, hdestroy.held, rfl, (by simp), hdestroy.paused, hdestroy.trace⟩
  | outside => exact h.calm (Calm.push s _ (by simp [Frame.operation]))
  | ignored hd => exact h.calm (Calm.delivers hd)
  | @callback _ _ _ u callback k v hd hk =>
    exact (h.calm (Calm.runs hd hk.operation [.user (.timerCallback u callback)]
      (by simp [Frame.operation]))).calm
      (Calm.emit _ [.callback u callback] (by simp [Event.isMild]))
  | @timeout _ _ _ _ c k v hd hk =>
    exact (h.calm (Calm.runs hd hk.operation [] (by simp))).calm
      (Calm.emit _ [.timeout c] (by simp [Event.isMild]))
  | @timedOut _ _ _ _ c k v hd hk _ hc =>
    have hruns := (Calm.runs hd hk.operation [] (by simp)).trans
      (Calm.emit _ [.timeout c] (by simp [Event.isMild]))
    obtain ⟨hu, hfits⟩ := hreg.delivers hd
    have hpush := (hu.emit [.timeout c]).push_one ((hk.fits hfits).1.mono (.of_eq rfl))
    exact (h.calm hruns).calm (Calm.answer_unfinished hpush hc none)
  | @futurePending _ _ _ _ f k v hd hk =>
    exact (h.calm (Calm.runs hd hk.operation [] (by simp))).calm
      (Calm.emit _ [.futureQueried f] (by simp [Event.isMild]))
  | @futureReady _ _ _ u f k v value hd hk =>
    have hruns := Calm.runs hd hk.operation [.user (.futureCallback f value), .afterFuture u]
      (by simp [Frame.operation])
    exact (h.calm hruns).calm (Calm.congr rfl rfl [.futureQueried f, .futureGot f value]
      (by simp) (by simp [Event.isMild]))
  | @futureConsumed _ _ _ _ f _ _ hd =>
    exact (h.calm (Calm.delivers hd)).calm (Calm.emit _ _ (by simp [Event.isMild]))
  | @notConnected _ _ c _ u hd =>
    obtain ⟨hu, hc⟩ := hreg.delivers hd
    exact h.calm (Calm.answer_connect hd (OnSocket.refl c u) hu hc none)
  | connected hd hv => exact h.calm (Calm.connected hd hv)
  | refused hd hv =>
    obtain ⟨hu, hc⟩ := hreg.delivers hd
    exact h.calm (Calm.answer_connect hd hv (hu.onSocket hc hv)
      (Nat.lt_of_lt_of_eq hc hv.connCount.symm) none)
  | transferred hd _ _ hv => exact h.calm ((Calm.delivers hd).trans (Calm.onSocket hv))
  | received hd hv =>
    exact h.calm (((Calm.delivers hd).trans (Calm.onSocket hv)).trans
      (Calm.push _ _ (by simp [Frame.operation])))
  | @answered _ _ c _ _ v hd hv hin =>
    obtain ⟨hu, hc⟩ := hreg.delivers hd
    have hpush := (hu.onSocket hc hv).push_one (f := .afterReceive c)
      (Nat.lt_of_lt_of_eq hc hv.connCount.symm)
    have hcalm := ((Calm.delivers hd).trans (Calm.onSocket hv)).trans
      (Calm.push _ [.afterReceive c] (by simp [Frame.operation]))
    exact (h.calm hcalm).calm (Calm.answer_unfinished hpush hin _)
  | @task i _ p error u hd =>
    exact h.calm (Calm.runs hd (f := .taskHandler p) rfl [.user (.task p)]
      (by simp [Frame.operation]))
  | @discard i p a _ hop hp =>
    have hoperation : a.operation = some (.task p) := by
      rw [AsyncOp.operation, hp]
      rfl
    have hclaims := State.claims_eraseIdx hop
    have herase : Calm s { s with ops := s.ops.eraseIdx i } :=
      Calm.withOps s fun op => (hclaims op) ▸ Nat.le_add_right _ _
    have hheld := h.held_of_claims (t := { s with ops := s.ops.eraseIdx i }) (p := p)
      (by rw [hclaims, hoperation, if_pos rfl])
    exact (h.calm herase).releaseHeld (howners.withOps _) hheld.1 hheld.2
  | release _ _ hlive => exact h.release howners hlive
  | @finish i k delay error hop hwait =>
    refine h.calm (Calm.withOps s fun op => Nat.add_le_add_right (Nat.le_of_eq ?_) _)
    have hsame : (AsyncOp.mk k (.done (error.map .other)) delay).operation =
        (AsyncOp.mk k .pending delay).operation := by
      unfold AsyncOp.operation
      cases hk : k.isWait with
      | false => simp
      | true => simp [hwait hk, OpStatus.failed]
    have hcount := congrArg (List.countP (· = some op)) (State.map_set hop hsame)
    rwa [List.countP_map, List.countP_map] at hcount
  | futureMadeReady =>
    exact h.calm (Calm.congr rfl rfl [] (List.append_nil _).symm (by simp))
  | command _ hc => exact h.command hreg howners hcaller hone hc
  | @ret answer code fs hstack =>
    refine (h.calm (hpop hstack)).calm ?_
    unfold State.returns
    split
    · exact Calm.send _ _ _
    · exact Calm.send _ _ _
    · exact Calm.congr rfl rfl [] (List.append_nil _).symm (by simp)
  | @throw what catcher code fs hstack =>
    have hthrew := (h.calm (hpop hstack)).calm
      (Calm.emit _ [.threw code what] (by simp [Event.isMild]))
    exact hthrew.unwind (s := s.emit [.threw code what]) what catcher fs
      (howners.emit (by simp [Event.Owned]))
  | runProcessor hstack hq => exact h.runProcessor hstacked hstack hq
  | done hstack => exact h.calm (hpop hstack)
  | @oneShotDone _ u fs hstack =>
    obtain ⟨hreturned, hnil⟩ := h.returned hstack (show _ = some (.oneShot u) from rfl) (by simp)
    refine hreturned.timerStop fun q hq op hop => ?_
    have hq : (s.timers u).requestProcessorQueue = some q := hq
    rw [howners.timers u] at hq
    have hnil : outstanding q ({ s with stack := fs }.emit [.returned (.oneShot u)]).trace = [] :=
      hnil q hq
    rw [hnil] at hop
    cases hop
  | tickDone hstack => exact h.calm ((hpop hstack).trans (Calm.startPeriodic _ _ _ _))
  | @futureDone _ u fs hstack =>
    refine (h.calm (hpop hstack)).timerStop fun q hq => ?_
    have hq : (s.timers u).requestProcessorQueue = some q := hq
    rw [howners.timers u] at hq
    exact hone.stop u (by simp [State.stopper, hstack]) q hq
  | @responseDone _ c fs hstack =>
    obtain ⟨hreturned, hnil⟩ := h.returned hstack (show _ = some (.client c) from rfl) (by simp)
    have huse := hreturned.calm (Calm.use _ (.client (s.conns c).service))
    refine huse.queueLaunch fun q hq => hnil q ?_
    -- the queue that is launched is the one of the request's maker
    have hc : c < s.connCount := hreg.stack (.afterResponse c) (hstack ▸ List.mem_cons_self)
    have hq : (s.conns c).service.queue s.clientQueue = some q := hq
    cases hservice : (s.conns c).service with
    | io n =>
      rw [hservice] at hq
      cases hq
    | connection =>
      rw [hservice] at hq
      obtain ⟨r, hr⟩ := Option.ne_none_iff_exists'.mp (howners.conns c hc hservice)
      have hcurrent := hcaller r (by simp [State.caller, hstack, hr])
      obtain rfl : r = q := Option.some.inj ((howners.current r hcurrent).2.1.symm.trans hq)
      exact hr
  | receiveDone hstack hv => exact h.calm ((hpop hstack).trans (Calm.onSocket hv))
  | @taskDone _ p fs hstack =>
    have hclaims : s.claims (.task p) = { s with stack := fs }.claims (.task p) + 1 := by
      simp [State.claims, hstack, Frame.operation, Nat.add_assoc]
    have hheld := h.held_of_claims hclaims
    exact (h.calm (hpop hstack)).releaseHeld (howners.withStack fs) hheld.1 hheld.2
  | @rethrown _ what fs hstack =>
    exact Pauses.unwind (s := { s with stack := fs }) what none fs (h.calm (hpop hstack))
      (howners.withStack fs)

theorem init : Pauses {} where
  single _ := Nat.zero_le _
  delivered _ hne := absurd rfl hne
  context := nofun
  live op q hmaker := by cases op <;> cases hmaker
  held _ := Nat.zero_le _
  paused := nofun
  idle := LaunchedIdle.nil

end Pauses

/-- **The queue waits for the operations of its request.** In a run of a connection whose requests
are handled by a `Router`, whose operations call queues only while their request is the one
delivered last, and are started one at a time, queues are launched, and processors are run, only
while their request has no outstanding operation. -/
theorem launched_idle {l : List Label} {s : State} (hrouted : ∀ a ∈ l, a.IsRouted)
    (hguard : runtime.EachStep (fun s a _ => CallerIsCurrent s a ∧ OneAtATime s a) runtime.init l)
    (hs : runtime.run runtime.init l = some s) : LaunchedIdle s.trace := by
  have hall := (hguard.restrict hrouted).invariant
    (J := fun s => (Registered s ∧ s.Stacked) ∧ Owners s ∧ Pauses s)
    (G := fun s a => a.IsRouted ∧ CallerIsCurrent s a ∧ OneAtATime s a) ?_ hs
    ⟨⟨Registered.init, Stacked.nil⟩, Owners.init, Pauses.init⟩
  · exact hall.2.2.idle
  · rintro u a t ⟨⟨hreg, hstacked⟩, howners, hpauses⟩ ⟨hrouted, hcaller, hone⟩ hstep
    have hstep := Step.of_step hstep
    exact ⟨⟨hreg.step hstep, Stacked.step hreg hstacked hstep⟩,
      howners.step hreg hrouted hcaller hstep,
      hpauses.step hreg hstacked howners hrouted hcaller hone hstep⟩

/-- A timer and then a client request, each started by a processor of its own. -/
theorem launched_idle_in_turn : ∃ s, runtime.run runtime.init
      (timerRun ++ [.runProcessor, .command (.makeRequest (.responder 0) .localHttp true 100),
        .ret none, .resume {}, .finish 1 none, .deliver 1 { accepts := false }, .ret none,
        .resume {}, .runProcessor]) = some s ∧ LaunchedIdle s.trace := by
  refine ⟨_, rfl, ?_⟩
  exact launched_idle (l := timerRun ++ [.runProcessor,
    .command (.makeRequest (.responder 0) .localHttp true 100), .ret none, .resume {},
    .finish 1 none, .deliver 1 { accepts := false }, .ret none, .resume {}, .runProcessor])
    (by decide) (by decide) rfl

/-- A processor starts two timers, and the first to expire launches the queue, which runs the next
processor. -/
theorem launched_while_outstanding : ∃ s, runtime.run runtime.init
      [.processRequest .router, .runProcessor, .command (.makeTimer (some 0)),
        .command (.makeTimer (some 0)), .command (.start 0 10 1), .command (.start 1 20 2),
        .ret none, .resume {}, .resume {}, .finish 0 none, .deliver 0 {}, .ret none, .resume {},
        .runProcessor] = some s ∧
    outstanding 0 s.trace = [.oneShot 1] ∧ ¬ LaunchedIdle s.trace :=
  ⟨_, rfl, by decide, by decide⟩

end Asyncgi
