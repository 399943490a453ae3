import Asyncgi.Runtime.Stack

/-!
# The queue an operation stops and launches

Timers keep a reference to the queue their provider had when they were made; the client service
and the dispatcher read the queue they were given last. A connection gives all three the queue of
each request that a `Router` handles, in place of the one of the request before, which is
destroyed. So an operation reaches its own request's queue as long as the request is the one
delivered last.

## Main definitions

* `Event.Owned`: a call on a queue is made for an operation of the queue's own request, while the
  queue exists
* `State.caller`: the request for whose operation a step calls a queue
* `Owners`: the references to queues agree with the requests they are kept for

## Main results

* `queue_calls_owned`: calls on queues are owned in the runs whose callers are current
-/

namespace Asyncgi

/-- A call on a queue is made for an operation of the queue's request, while the queue exists. -/
def Event.Owned : Event → Prop
  | queueStop maker q alive | queueLaunch maker q alive => maker = some q ∧ alive = true
  | _ => True

/-- The request for whose operation a step calls a queue through a timer, a client, or the
dispatcher. -/
def State.caller (s : State) : Label → Option RequestId
  | .command (.start t _ _) | .command (.startPeriodic t _ _) | .command (.waitFuture t _ _)
  | .command (.stop t) => (s.timers t).maker
  | .command (.makeRequest client _ _ _) => client.maker
  | .command (.postTask maker) => maker
  | .resume _ =>
    match s.stack with
    | .afterOneShot t :: _ | .afterPeriodic t _ _ :: _ | .afterFuture t :: _ => (s.timers t).maker
    | .afterResponse c :: _ => (s.conns c).maker
    | _ => none
  | _ => none

/-- The step calls a queue only for an operation of the request that was delivered last. -/
def CallerIsCurrent (s : State) (l : Label) : Prop :=
  ∀ r, s.caller l = some r → s.server.responseContext = some r

instance (s : State) (l : Label) : Decidable (CallerIsCurrent s l) :=
  inferInstanceAs (Decidable (∀ r ∈ s.caller l, s.server.responseContext = some r))

/-- The connection's requests are handled by a `Router`. -/
def Label.IsRouted (l : Label) : Prop := l ≠ .processRequest .function

instance (l : Label) : Decidable l.IsRouted :=
  inferInstanceAs (Decidable (l ≠ .processRequest .function))

/-- The references to queues agree with the requests they are kept for. -/
structure Owners (s : State) : Prop where
  current : ∀ r, s.server.responseContext = some r →
    s.providerQueue = some r ∧ s.clientQueue = some r ∧ s.dispatcherQueue = some r
  timers : ∀ t, (s.timers t).requestProcessorQueue = (s.timers t).maker
  conns : ∀ c < s.connCount, (s.conns c).service = .connection → (s.conns c).maker ≠ none
  contexts : ∀ p q, (s.contexts p).queueObserver = some q → (s.contexts p).maker = some q
  trace : ∀ e ∈ s.trace, e.Owned

/-- What `Owners` is about, the connections and the trace apart. -/
def State.owners (s : State) : Option RequestId × Option RequestId × Option RequestId ×
    Option RequestId × (TimerId → TimerService) × (PostId → PostAction) :=
  (s.server.responseContext, s.providerQueue, s.clientQueue, s.dispatcherQueue, s.timers,
    s.contexts)

namespace Owners

variable {s t u : State}

theorem mono (hs : Owners s) (howners : t.owners = s.owners)
    (hconns : ∀ c < t.connCount, c < s.connCount ∧
      (t.conns c).service = (s.conns c).service ∧ (t.conns c).maker = (s.conns c).maker)
    (htrace : ∀ e ∈ t.trace, e ∈ s.trace ∨ e.Owned) : Owners t := by
  simp only [State.owners, Prod.mk.injEq] at howners
  obtain ⟨hcontext, hprovider, hclient, hdispatcher, htimers, hcontexts⟩ := howners
  constructor
  · rw [hcontext, hprovider, hclient, hdispatcher]
    exact hs.current
  · rw [htimers]
    exact hs.timers
  · intro c hc
    obtain ⟨hc, hservice, hmaker⟩ := hconns c hc
    rw [hservice, hmaker]
    exact hs.conns c hc
  · rw [hcontexts]
    exact hs.contexts
  · exact fun e he => (htrace e he).elim (hs.trace e) id

/-- A step that makes no object and calls queues as it should. -/
theorem calls (hs : Owners s) (howners : t.owners = s.owners)
    (hconns : (t.conns, t.connCount) = (s.conns, s.connCount)) (es : List Event)
    (htrace : t.trace = s.trace ++ es) (hes : ∀ e ∈ es, e.Owned) : Owners t := by
  obtain ⟨hconns, hcount⟩ := Prod.mk.inj hconns
  refine hs.mono howners (fun c hc => ⟨hcount ▸ hc, by rw [hconns], by rw [hconns]⟩) ?_
  intro e he
  rw [htrace, List.mem_append] at he
  exact he.imp_right (hes e)

/-- A step that calls no queue. -/
theorem congr (hs : Owners s) (howners : t.owners = s.owners)
    (hconns : (t.conns, t.connCount) = (s.conns, s.connCount)) (htrace : t.trace = s.trace) :
    Owners t :=
  hs.calls howners hconns [] (by rw [htrace, List.append_nil]) (by simp)

theorem withStack (hs : Owners s) (fs : List Frame) : Owners { s with stack := fs } :=
  hs.congr rfl rfl rfl

theorem withOps (hs : Owners s) (ops : List AsyncOp) : Owners { s with ops := ops } :=
  hs.congr rfl rfl rfl

theorem emit (hs : Owners s) {es : List Event} (hes : ∀ e ∈ es, e.Owned) : Owners (s.emit es) :=
  hs.calls rfl rfl _ (State.emit_trace s es) hes

theorem delivers (hs : Owners s) {i : Nat} {h : Handler} {error : Option OpError}
    (hd : Delivers s i h error t) : Owners t := by
  rw [hd.rest]
  exact hs.congr rfl rfl rfl

theorem onSocket (hs : Owners s) {c : ConnId} (h : OnSocket c s t) : Owners t := by
  refine hs.mono ?_ (fun d hd => ⟨h.connCount ▸ hd, h.service d, h.maker d⟩)
    (fun e he => Or.inl (h.trace ▸ he))
  simp only [State.owners, h.server, h.providerQueue, h.clientQueue, h.dispatcherQueue, h.timers,
    h.contexts]

/-! ### The calls on queues -/

/-- The calls a timer makes on its queue, when its request is the current one. -/
theorem timer_calls (hs : Owners s) {t : TimerId}
    (hcaller : ∀ r, (s.timers t).maker = some r → s.server.responseContext = some r) :
    ∀ q ∈ (s.timers t).requestProcessorQueue,
      (s.timers t).maker = some q ∧ s.server.queueAlive q = true := by
  intro q hq
  rw [hs.timers t] at hq
  exact ⟨hq, Server.queueAlive_iff.mpr (hcaller q hq)⟩

/-- The calls the client service makes on its queue, when the request is the current one. -/
theorem client_calls (hs : Owners s) {k : ClientRef} {maker : Option RequestId}
    (hmaker : k = .connection → maker ≠ none)
    (hcaller : ∀ r, maker = some r → s.server.responseContext = some r) :
    ∀ q ∈ k.queue s.clientQueue, maker = some q ∧ s.server.queueAlive q = true := by
  intro q hq
  cases k with
  | io n => cases hq
  | connection =>
    obtain ⟨r, hr⟩ := Option.ne_none_iff_exists'.mp (hmaker rfl)
    have hcurrent := hcaller r hr
    obtain rfl : r = q := Option.some.inj ((hs.current r hcurrent).2.1.symm.trans hq)
    exact ⟨hr, Server.queueAlive_iff.mpr hcurrent⟩

/-- Stops of a queue are owned where the queue is the maker's and exists. -/
theorem owned_stops {maker q : Option RequestId} {alive : RequestId → Bool}
    (h : ∀ r ∈ q, maker = some r ∧ alive r = true) :
    ∀ e ∈ q.toList.map fun q => Event.queueStop maker q (alive q), e.Owned := by
  intro e he
  obtain ⟨r, hr, rfl⟩ := List.mem_map.mp he
  exact h r (Option.mem_toList.mp hr)

/-- Launches of a queue are owned where the queue is the maker's and exists. -/
theorem owned_launches {maker q : Option RequestId} {alive : RequestId → Bool}
    (h : ∀ r ∈ q, maker = some r ∧ alive r = true) :
    ∀ e ∈ q.toList.map fun q => Event.queueLaunch maker q (alive q), e.Owned := by
  intro e he
  obtain ⟨r, hr, rfl⟩ := List.mem_map.mp he
  exact h r (Option.mem_toList.mp hr)

section Timer

variable {u : TimerId}
  (hcaller : ∀ r, (s.timers u).maker = some r → s.server.responseContext = some r)
include hcaller

theorem timerStart (hs : Owners s) (time : Milliseconds) (task : Task) :
    Owners (TimerService.start s u time task) :=
  hs.calls rfl rfl _ (TimerService.start_trace s u time task) (owned_stops (hs.timer_calls hcaller))

theorem startPeriodic (hs : Owners s) (time : Milliseconds) (task : Task) :
    Owners (TimerService.startPeriodic s u time task) :=
  hs.calls rfl rfl _ (TimerService.startPeriodic_trace s u time task)
    (owned_stops (hs.timer_calls hcaller))

theorem timerStop (hs : Owners s) : Owners (TimerService.stop s u) := by
  refine hs.calls rfl rfl _ (TimerService.stop_trace s u) (List.forall_mem_cons.mpr ⟨trivial, ?_⟩)
  exact owned_launches (hs.timer_calls hcaller)

end Timer

theorem destroyContext (hs : Owners s) (p : PostId) : Owners (TaskContext.destroy s p) := by
  refine hs.calls rfl rfl _ (TaskContext.destroy_trace s p) ?_
  refine List.forall_mem_cons.mpr ⟨trivial, owned_launches fun q hq => ?_⟩
  obtain ⟨hobserver, hcurrent⟩ := Server.lock_eq_some.mp hq
  exact ⟨hs.contexts p q hobserver, Server.queueAlive_iff.mpr hcurrent⟩

/-- The copies of a context do not matter. -/
theorem setContext (hs : Owners s) {p : PostId} {context : PostAction}
    (hmaker : context.maker = (s.contexts p).maker)
    (hobserver : context.queueObserver = (s.contexts p).queueObserver) :
    Owners (TaskContext.setContext s p context) := by
  refine ⟨hs.current, hs.timers, hs.conns, fun p' q hq => ?_, hs.trace⟩
  rw [TaskContext.setContext_contexts] at hq ⊢
  by_cases hp : p' = p
  · subst hp
    rw [Function.update_self] at hq ⊢
    rw [hmaker]
    exact hs.contexts p' q (hobserver ▸ hq)
  · rw [Function.update_of_ne hp] at hq ⊢
    exact hs.contexts p' q hq

theorem releaseHeld (hs : Owners s) (p : PostId) : Owners (TaskContext.releaseHeld s p) := by
  by_cases hlast : (s.contexts p).copies = 0
  · rw [TaskContext.releaseHeld_last hlast]
    refine Owners.destroyContext ?_ p
    exact hs.setContext rfl rfl
  · rw [TaskContext.releaseHeld_shared hlast]
    exact hs.setContext rfl rfl

theorem release (hs : Owners s) (p : PostId) : Owners (TaskContext.release s p) := by
  by_cases hlast : (s.contexts p).copies ≤ 1 ∧ (s.contexts p).held = false
  · rw [TaskContext.release_last hlast]
    refine Owners.destroyContext ?_ p
    exact hs.setContext rfl rfl
  · rw [TaskContext.release_shared hlast]
    exact hs.setContext rfl rfl

theorem unwind (what : Option String) (catcher : Option Nat) (fs : List Frame) (hs : Owners s) :
    Owners (State.unwind what catcher fs s) := by
  refine State.unwind_invariant (fun t fs h => h.congr rfl rfl rfl) (fun t p h => h.releaseHeld p)
    (fun t h => ?_) (fun t h => ?_) (fun t h => ?_) catcher fs hs
  · refine h.congr ?_ rfl rfl
    simp [State.owners]
  · exact h.calls rfl rfl [.escaped] rfl (by simp [Event.Owned])
  · exact h.calls rfl rfl [.terminated] rfl (by simp [Event.Owned])

/-- The response handler of a request runs; the timeout timer has no queue. -/
theorem onResponseReceived (hs : Owners s) (hreg : Registered s) {c : ConnId}
    (hc : c < s.connCount) (response : Option ResponseData) :
    Owners (ClientService.onResponseReceived s c response) := by
  refine hs.calls rfl rfl _ (ClientService.onResponseReceived_trace s c response) ?_
  rw [(hreg.conn c hc).2]
  simp [Event.Owned]

/-! ### The steps of the runtime -/

theorem processRequest (hs : Owners s) :
    Owners (Connection.processRequest s .router) where
  current r hr := by
    obtain rfl : s.server.requests = r := by simpa [Connection.processRequest] using hr
    simp [Connection.processRequest]
  timers := hs.timers
  conns := hs.conns
  contexts := hs.contexts
  trace e he := by
    have he : e ∈ s.trace ∨ e = .initialLaunch s.server.requests := by
      simpa [Connection.processRequest] using he
    rcases he with he | rfl
    · exact hs.trace e he
    · trivial

theorem makeTimer (hs : Owners s) (maker : Option RequestId) : Owners (Timer.make s maker) := by
  have hemplace : ∀ timer : TimerService, timer.requestProcessorQueue = timer.maker →
      Owners (s.emplaceTimer timer) := by
    intro timer htimer
    refine ⟨hs.current, fun t => ?_, hs.conns, hs.contexts, hs.trace⟩
    rw [State.emplaceTimer_timers]
    by_cases ht : t = s.timerCount
    · subst ht
      rw [Function.update_self]
      exact htimer
    · rw [Function.update_of_ne ht]
      exact hs.timers t
  cases maker with
  | none => exact hemplace _ rfl
  | some r =>
    by_cases hr : s.server.responseContext = some r
    · rw [Timer.make_current hr]
      exact hemplace _ (hs.current r hr).1
    · rw [Timer.make_expired hr]
      exact hs

theorem prepareRequest (hs : Owners s) {client : ClientHandle}
    (hcaller : ∀ r, client.maker = some r → s.server.responseContext = some r)
    (overload : Overload) (timeout : Milliseconds) :
    Owners (ClientService.prepareRequest s client.service client.maker overload timeout) := by
  have hmaker : client.service = .connection → client.maker ≠ none := by
    cases client <;> simp [ClientHandle.service, ClientHandle.maker]
  refine ⟨hs.current, fun t => ?_, fun c hc hservice => ?_, hs.contexts, fun e he => ?_⟩
  · rw [ClientService.prepareRequest_timers]
    by_cases ht : t = s.timerCount
    · subst ht
      rw [Function.update_self]
    · rw [Function.update_of_ne ht]
      exact hs.timers t
  · rw [ClientService.prepareRequest_conns] at hservice ⊢
    by_cases hold : c = s.connCount
    · subst hold
      rw [Function.update_self] at hservice ⊢
      exact hmaker hservice
    · rw [Function.update_of_ne hold] at hservice ⊢
      exact hs.conns c (Nat.lt_of_le_of_ne (Nat.le_of_lt_succ hc) hold) hservice
  · rw [ClientService.prepareRequest_trace, List.mem_append] at he
    rcases he with he | he
    · exact hs.trace e he
    · exact owned_stops (hs.client_calls hmaker hcaller) e he

theorem postTask (hs : Owners s) {maker : Option RequestId}
    (hcaller : ∀ r, maker = some r → s.server.responseContext = some r) :
    Owners (AsioDispatcherService.postTask s maker) := by
  have hqueue : ∀ q, (maker.bind fun _ => s.dispatcherQueue) = some q → maker = some q := by
    intro q hq
    obtain ⟨r, rfl, hr⟩ := Option.bind_eq_some_iff.mp hq
    exact (hs.current r (hcaller r rfl)).2.2.symm.trans hr
  refine ⟨hs.current, hs.timers, hs.conns, fun p q hq => ?_, fun e he => ?_⟩
  · rw [AsioDispatcherService.postTask_contexts] at hq ⊢
    by_cases hp : p = s.postCount
    · subst hp
      rw [Function.update_self] at hq ⊢
      exact hqueue q hq
    · rw [Function.update_of_ne hp] at hq ⊢
      exact hs.contexts p q hq
  · rw [AsioDispatcherService.postTask_trace, List.mem_append] at he
    rcases he with he | he
    · exact hs.trace e he
    · refine owned_stops (fun q hq => ?_) e he
      obtain ⟨hq, hcurrent⟩ := Server.lock_eq_some.mp hq
      exact ⟨hqueue q hq, Server.queueAlive_iff.mpr hcurrent⟩

theorem command (hs : Owners s) {c : Command} (hcaller : CallerIsCurrent s (.command c))
    (hc : CommandStep s c t) : Owners t := by
  cases hc with
  | makeTimer => exact hs.makeTimer _
  | start => exact (hs.timerStart hcaller _ _).emit (by simp [Event.Owned])
  | startPeriodic | waitFuture => exact (hs.startPeriodic hcaller _ _).emit (by simp [Event.Owned])
  | stop => exact hs.timerStop hcaller
  | destroyTimer | makeClient | disconnect | destroyClient => exact hs.congr rfl rfl rfl
  | @makeRequest _ overload timeout =>
    have hprepared := hs.prepareRequest hcaller overload timeout
    have hconnect := hprepared.onSocket (ClientConnection.onSocket_opened _ s.connCount)
    refine Owners.emit ?_ (by simp [Event.Owned])
    exact hconnect.congr rfl rfl rfl
  | makeRequestThrows => exact hs.prepareRequest hcaller _ _
  | postTask =>
    exact (hs.postTask hcaller).emit (by simp [Event.Owned])
  | copyContext => exact hs.setContext rfl rfl
  | releaseContext => exact hs.release _
  | send =>
    refine hs.congr ?_ rfl rfl
    simp [State.send, State.owners]

theorem step (hs : Owners s) (hreg : Registered s) {l : Label} (hl : l.IsRouted)
    (hcaller : CallerIsCurrent s l) (hstep : Step s l t) : Owners t := by
  cases hstep with
  | @processRequest processor =>
    cases processor with
    | router => exact hs.processRequest
    | function => exact absurd rfl hl
  | destroyConnection =>
    exact ⟨nofun, hs.timers, hs.conns, hs.contexts, hs.trace⟩
  | outside | finish | futureMadeReady => exact hs.congr rfl rfl rfl
  | ignored hd => exact hs.delivers hd
  | @callback _ _ _ t callback _ _ hd =>
    exact (hs.delivers hd).calls rfl rfl [.callback t callback] rfl (by simp [Event.Owned])
  | @timeout _ _ _ _ c _ _ hd =>
    exact (hs.delivers hd).calls rfl rfl [.timeout c] rfl (by simp [Event.Owned])
  | @timedOut _ _ _ _ c _ u hd hk _ hc =>
    obtain ⟨hu, hfits⟩ := hreg.delivers hd
    have hpush := (hu.emit [.timeout c]).push_one ((hk.fits hfits).1.mono (.of_eq rfl))
    refine Owners.onResponseReceived ?_ (hpush.endRequest c) (hu.inProgress _ hc) _
    exact (hs.delivers hd).calls rfl rfl [.timeout c] rfl (by simp [Event.Owned])
  | @futurePending _ _ _ _ f _ _ hd =>
    exact (hs.delivers hd).calls rfl rfl [.futureQueried f] rfl (by simp [Event.Owned])
  | @futureReady _ _ _ _ f _ _ value hd =>
    exact (hs.delivers hd).calls rfl rfl [.futureQueried f, .futureGot f value]
      (by simp) (by simp [Event.Owned])
  | @futureConsumed _ _ _ _ f _ _ hd =>
    exact (hs.delivers hd).emit (by simp [Event.Owned])
  | notConnected hd =>
    obtain ⟨hu, hc⟩ := hreg.delivers hd
    exact (hs.delivers hd).onResponseReceived hu hc _
  | @connected _ _ c u v hd hv =>
    refine ((hs.delivers hd).onSocket hv).mono rfl (fun d hd => ⟨hd, ?_⟩) (fun _ he => Or.inl he)
    rw [State.beginRequest_conns]
    by_cases hdc : d = c
    · simp [hdc]
    · simp [Function.update_of_ne hdc]
  | refused hd hv =>
    obtain ⟨hu, hc⟩ := hreg.delivers hd
    exact ((hs.delivers hd).onSocket hv).onResponseReceived (hu.onSocket hc hv)
      (Nat.lt_of_lt_of_eq hc hv.connCount.symm) _
  | transferred hd _ _ hv => exact (hs.delivers hd).onSocket hv
  | received hd hv => exact ((hs.delivers hd).onSocket hv).congr rfl rfl rfl
  | @answered _ _ c _ _ _ hd hv =>
    obtain ⟨hu, hc⟩ := hreg.delivers hd
    have hlt := Nat.lt_of_lt_of_eq hc hv.connCount.symm
    have hpush := ((hu.onSocket hc hv).push_one (f := .afterReceive c) hlt).endRequest c
    refine Owners.onResponseReceived ?_ hpush hlt _
    exact ((hs.delivers hd).onSocket hv).congr rfl rfl rfl
  | task hd => exact (hs.delivers hd).congr rfl rfl rfl
  | discard => exact (hs.withOps _).releaseHeld _
  | release => exact hs.release _
  | command _ hc => exact hs.command hcaller hc
  | ret =>
    unfold State.returns
    split
    · exact hs.congr (by simp [State.send, State.owners]) rfl rfl
    · exact hs.congr (by simp [State.send, State.owners]) rfl rfl
    · exact hs.congr rfl rfl rfl
  | throw => exact Owners.unwind _ _ _ (hs.emit (by simp [Event.Owned]))
  | @runProcessor q =>
    exact hs.calls rfl rfl [.processor q] rfl (by simp [Event.Owned])
  | done => exact hs.congr rfl rfl rfl
  | @oneShotDone _ u fs hstack =>
    have hcurrent : ∀ r, (s.timers u).maker = some r → s.server.responseContext = some r := by
      simpa [CallerIsCurrent, State.caller, hstack] using hcaller
    have hpop := hs.withStack fs
    exact Owners.timerStop (s := State.emit { s with stack := fs } [.returned (.oneShot u)])
      hcurrent (hpop.emit (by simp [Event.Owned]))
  | @tickDone _ u time task fs hstack =>
    have hcurrent : ∀ r, (s.timers u).maker = some r → s.server.responseContext = some r := by
      simpa [CallerIsCurrent, State.caller, hstack] using hcaller
    have hpop := hs.withStack fs
    exact Owners.startPeriodic (s := { s with stack := fs }) hcurrent hpop time task
  | @futureDone _ u fs hstack =>
    have hcurrent : ∀ r, (s.timers u).maker = some r → s.server.responseContext = some r := by
      simpa [CallerIsCurrent, State.caller, hstack] using hcaller
    have hpop := hs.withStack fs
    exact Owners.timerStop (s := { s with stack := fs }) hcurrent hpop
  | @responseDone _ c fs hstack =>
    have hcurrent : ∀ r, (s.conns c).maker = some r → s.server.responseContext = some r := by
      simpa [CallerIsCurrent, State.caller, hstack] using hcaller
    have hc : c < s.connCount := hreg.stack (.afterResponse c) (hstack ▸ List.mem_cons_self)
    refine hs.calls rfl rfl _ (ClientService.afterResponse_trace _ c)
      (List.forall_mem_cons.mpr ⟨trivial, ?_⟩)
    exact owned_launches (hs.client_calls (hs.conns c hc) hcurrent)
  | receiveDone _ hv => exact (hs.withStack _).onSocket hv
  | taskDone => exact (hs.withStack _).releaseHeld _
  | rethrown => exact Owners.unwind _ none _ (hs.withStack _)

theorem init : Owners {} where
  current := nofun
  timers _ := rfl
  conns _ hc := absurd hc (Nat.not_lt_zero _)
  contexts := nofun
  trace _ he := absurd he List.not_mem_nil

end Owners

/-- **The queue of the request that started the operation.** In a run of a connection whose requests
are handled by a `Router`, and whose operations call queues only while their request is the one
delivered last, every call of `stop()` and `launch()` for an operation is made on the queue of the
operation's own request, and while that queue exists. -/
theorem queue_calls_owned {l : List Label} {s : State} (hrouted : ∀ a ∈ l, a.IsRouted)
    (hcaller : runtime.EachStep (fun s a _ => CallerIsCurrent s a) runtime.init l)
    (hs : runtime.run runtime.init l = some s) : ∀ e ∈ s.trace, e.Owned := by
  have hboth := (hcaller.restrict hrouted).invariant (J := fun s => Registered s ∧ Owners s)
    (G := fun s a => a.IsRouted ∧ CallerIsCurrent s a) ?_ hs ⟨Registered.init, Owners.init⟩
  · exact hboth.2.trace
  · rintro u a t ⟨hreg, howners⟩ ⟨hrouted, hcaller⟩ hstep
    have hstep := Step.of_step hstep
    exact ⟨hreg.step hstep, howners.step hreg hrouted hcaller hstep⟩

/-- The expiry of a timer launches the queue of its own request. -/
theorem queue_calls_owned_timer : ∃ s, runtime.run runtime.init timerRun = some s ∧
    .queueLaunch (some 0) 0 true ∈ s.trace ∧ ∀ e ∈ s.trace, e.Owned :=
  ⟨_, rfl, by decide, queue_calls_owned (l := timerRun) (by decide) (by decide) rfl⟩

/-- A request waits for the answer to its client request when the next one is delivered; the answer
launches the queue of the next one. -/
theorem queue_of_next_request : ∃ s, runtime.run runtime.init
      [.processRequest .router, .runProcessor,
        .command (.makeRequest (.responder 0) .localFastcgi true 100), .ret none, .resume {},
        .resume {}, .processRequest .router, .resume {}, .resume {}, .finish 1 (some "refused"),
        .deliver 1 {}, .ret none, .resume {}] = some s ∧
    .queueLaunch (some 0) 1 true ∈ s.trace ∧ ¬ ∀ e ∈ s.trace, e.Owned := by
  refine ⟨_, rfl, by decide, fun h => ?_⟩
  have howned := h (.queueLaunch (some 0) 1 true) (by decide)
  exact absurd howned.1 (by decide)

end Asyncgi
