import Asyncgi.Client.Lifetime
import Asyncgi.Client.Timeout

/-!
# Disconnecting a client

`ClientService::disconnect` clears the list of the connections to local sockets, and with it
destroys them. A destroyed connection that is still connecting answers its request when the aborted
connect is delivered. The list of the TCP connections is left as it is, and nothing answers the
request of a destroyed connection that waits for its response.

## Main definitions

* `Delivered`: what a `disconnect()` has aborted is delivered, and its handlers have returned
* `DisconnectComplete`: a `disconnect()` has closed and answered all that it should
* `StillConnecting`: the connections are to local sockets, and the unanswered ones still connecting
* `ReturnsToQueue`: the response handlers return, and to the queues of their requests

## Main results

* `Accounts.step`: a request is in one place at a time, in every run
* `Keeps.step`: a step destroys what `State.destroys` says, and the trace only grows
* `disconnect_complete`: a `disconnect()` is complete exactly when the service's connections are to
  local sockets and the unanswered ones are still connecting
-/

namespace Asyncgi

/-! ## A request is in one place -/

/-- The places in which a request is, its answers counted. -/
def Tally.places (y : Tally) : Nat := y.connecting + y.unfinished + y.answers

/-- A request that was made is in one place at most: it connects, is unfinished, or is answered. -/
structure Accounts (c : ConnId) (s : State) : Prop where
  once : (s.tally c).calls ≤ 1
  places : (s.tally c).places ≤ (s.tally c).calls
  fresh : s.connCount ≤ c → (s.tally c).calls = 0

namespace Accounts

variable {c : ConnId} {s t : State} {l : Label}

theorem of_tally (h : Accounts c s) (hle : s.connCount ≤ t.connCount)
    (hcalls : (t.tally c).calls = (s.tally c).calls)
    (hplaces : (t.tally c).places ≤ (s.tally c).places) : Accounts c t where
  once := hcalls ▸ h.once
  places := by
    rw [hcalls]
    exact Nat.le_trans hplaces h.places
  fresh hc := hcalls ▸ h.fresh (Nat.le_trans hle hc)

theorem of_eq (h : Accounts c s) (hle : s.connCount ≤ t.connCount)
    (htally : t.tally c = s.tally c) : Accounts c t :=
  h.of_tally hle (by rw [htally]) (Nat.le_of_eq (by rw [htally]))

/-- A new request is made. -/
theorem made (h : Accounts c s) (hc : s.connCount = c) (k : ClientRef) (maker : Option RequestId)
    (overload : Overload) (timeout : Milliseconds) :
    Accounts c ((ClientService.makeRequest s k maker overload true timeout).emit
      [.started maker (.client s.connCount)]) := by
  subst hc
  have htally := tally_made s k maker overload timeout
  have hcalls := h.fresh (Nat.le_refl _)
  have hplaces := h.places
  simp only [Tally.places] at hplaces
  refine ⟨?_, ?_, fun hc => absurd hc (Nat.not_succ_le_self _)⟩
  · simp only [htally]
    omega
  · simp only [htally, Tally.places]
    omega

theorem step (h : Accounts c s) (hstep : Step s l t) : Accounts c t := by
  have hle := hstep.connCount_le
  cases Turn.of_step c hstep with
  | quiet hq => exact h.of_eq hle hq.tally
  | made hc => exact h.made hc _ _ _ _
  | destroyed hd htally =>
    refine h.of_tally hle (by rw [htally]) ?_
    simp only [htally, Tally.places]
    omega
  | @expired i k tm f u hexp hd hk hno =>
    exact h.of_eq hle ((tally_timeout u c).trans (Quiet.delivers hd (hk.ne_connect c)).tally)
  | @connected i u v hd hq hcount =>
    -- the connect has become an unfinished request
    have hs := hd.tally
    rw [← hq.tally] at hs
    refine h.of_tally hle (by rw [hs, tally_beginRequest]) ?_
    simp only [hs, tally_beginRequest, Tally.places]
    omega
  | @notConnected i error u v hd hq hcount =>
    have hs := hd.tally
    rw [← hq.tally] at hs
    refine h.of_tally hle (by rw [hs, tally_onResponseReceived]) ?_
    simp only [hs, tally_onResponseReceived, Tally.places]
    omega
  | @answered v response htally hcount hmem =>
    have hs := tally_endRequest hmem
    rw [htally] at hs
    refine h.of_tally hle (by rw [hs, tally_onResponseReceived]) ?_
    simp only [hs, tally_onResponseReceived, Tally.places]
    omega

theorem init (c : ConnId) : Accounts c {} where
  once := Nat.zero_le _
  places := Nat.le_refl _
  fresh _ := rfl

end Accounts

/-! ## What steps leave as it is -/

/-- The objects `p` are destroyed and no others, the connections keep what they captured, and the
trace grows. -/
structure Keeps (p : Object → Bool) (s t : State) : Prop where
  dead : ∀ o, t.dead o = (s.dead o || p o)
  connCount : s.connCount ≤ t.connCount
  conns : ∀ c < s.connCount, (t.conns c).service = (s.conns c).service ∧
    (t.conns c).maker = (s.conns c).maker ∧ (t.conns c).overload = (s.conns c).overload
  trace : s.trace <+: t.trace

namespace Keeps

variable {p : Object → Bool} {s t u : State}

theorem of_events (hobjects : (t.dead, t.conns, t.connCount) = (s.dead, s.conns, s.connCount))
    (es : List Event) (htrace : t.trace = s.trace ++ es) : Keeps (fun _ => false) s t := by
  simp only [Prod.mk.injEq] at hobjects
  obtain ⟨hdead, hconns, hcount⟩ := hobjects
  refine ⟨fun o => ?_, Nat.le_of_eq hcount.symm, fun c _ => ?_, ⟨es, htrace.symm⟩⟩
  · rw [hdead, Bool.or_false]
  · rw [hconns]
    exact ⟨rfl, rfl, rfl⟩

/-- No event is added. -/
theorem of_eq (hobjects : (t.dead, t.conns, t.connCount) = (s.dead, s.conns, s.connCount))
    (htrace : t.trace = s.trace) : Keeps (fun _ => false) s t :=
  of_events hobjects [] (by rw [htrace, List.append_nil])

theorem trans (h : Keeps (fun _ => false) s t) (h' : Keeps p t u) : Keeps p s u where
  dead o := by rw [h'.dead, h.dead, Bool.or_false]
  connCount := Nat.le_trans h.connCount h'.connCount
  conns c hc := by
    obtain ⟨hservice, hmaker, hoverload⟩ := h.conns c hc
    obtain ⟨hservice', hmaker', hoverload'⟩ := h'.conns c (Nat.lt_of_lt_of_le hc h.connCount)
    exact ⟨hservice'.trans hservice, hmaker'.trans hmaker, hoverload'.trans hoverload⟩
  trace := h.trace.trans h'.trace

/-- A connection gets other members, but captures the same. -/
theorem setConns (hrest : (t.dead, t.connCount) = (s.dead, s.connCount))
    (hconns : ∀ c < s.connCount, (t.conns c).service = (s.conns c).service ∧
      (t.conns c).maker = (s.conns c).maker ∧ (t.conns c).overload = (s.conns c).overload)
    (htrace : t.trace = s.trace) : Keeps (fun _ => false) s t := by
  obtain ⟨hdead, hcount⟩ := Prod.mk.inj hrest
  refine ⟨fun o => ?_, Nat.le_of_eq hcount.symm, hconns, ?_⟩
  · rw [hdead, Bool.or_false]
  · exact htrace ▸ List.prefix_rfl

theorem delivers {i : Nat} {h : Handler} {error : Option OpError} (hd : Delivers s i h error t) :
    Keeps (fun _ => false) s t := by
  rw [hd.rest]
  exact of_eq rfl rfl

theorem onSocket {c : ConnId} (h : OnSocket c s t) : Keeps (fun _ => false) s t :=
  setConns (by rw [h.dead, h.connCount])
    (fun d _ => ⟨h.service d, h.maker d, h.overload d⟩) h.trace

theorem beginRequest (s : State) (c : ConnId) : Keeps (fun _ => false) s (s.beginRequest c) := by
  refine setConns rfl (fun d _ => ?_) rfl
  rw [State.beginRequest_conns]
  by_cases hd : d = c
  · subst hd
    rw [Function.update_self]
    exact ⟨rfl, rfl, rfl⟩
  · rw [Function.update_of_ne hd]
    exact ⟨rfl, rfl, rfl⟩

theorem timerMake (s : State) (maker : Option RequestId) :
    Keeps (fun _ => false) s (Timer.make s maker) := by
  cases maker with
  | none => exact of_eq rfl rfl
  | some r =>
    by_cases hr : s.server.responseContext = some r
    · rw [Timer.make_current hr]
      exact of_eq rfl rfl
    · rw [Timer.make_expired hr]
      exact of_eq rfl rfl

theorem timerStart (s : State) (u : TimerId) (time : Milliseconds) (task : Task) :
    Keeps (fun _ => false) s (TimerService.start s u time task) :=
  of_events rfl _ (TimerService.start_trace s u time task)

theorem startPeriodic (s : State) (u : TimerId) (time : Milliseconds) (task : Task) :
    Keeps (fun _ => false) s (TimerService.startPeriodic s u time task) :=
  of_events rfl _ (TimerService.startPeriodic_trace s u time task)

theorem timerStop (s : State) (u : TimerId) : Keeps (fun _ => false) s (TimerService.stop s u) :=
  of_events rfl _ (TimerService.stop_trace s u)

theorem destroy (s : State) (p : Object → Bool) (closeErrors : List String) :
    Keeps p s (s.destroy p closeErrors) :=
  ⟨fun _ => rfl, Nat.le_refl _, fun _ _ => ⟨rfl, rfl, rfl⟩, List.prefix_rfl⟩

theorem prepareRequest (s : State) (k : ClientRef) (maker : Option RequestId) (overload : Overload)
    (timeout : Milliseconds) :
    Keeps (fun _ => false) s (ClientService.prepareRequest s k maker overload timeout) := by
  refine ⟨fun o => ?_, Nat.le_succ _, fun c hc => ?_, ?_⟩
  · exact (Bool.or_false _).symm
  · rw [ClientService.prepareRequest_conns, Function.update_of_ne (Nat.ne_of_lt hc)]
    exact ⟨rfl, rfl, rfl⟩
  · rw [ClientService.prepareRequest_trace]
    exact List.prefix_append _ _

theorem postTask (s : State) (maker : Option RequestId) :
    Keeps (fun _ => false) s (AsioDispatcherService.postTask s maker) :=
  of_events rfl _ (AsioDispatcherService.postTask_trace s maker)

theorem releaseHeld (s : State) (p : PostId) :
    Keeps (fun _ => false) s (TaskContext.releaseHeld s p) := by
  by_cases hlast : (s.contexts p).copies = 0
  · rw [TaskContext.releaseHeld_last hlast]
    exact of_events rfl _ (TaskContext.destroy_trace _ p)
  · rw [TaskContext.releaseHeld_shared hlast]
    exact of_eq rfl rfl

theorem release (s : State) (p : PostId) : Keeps (fun _ => false) s (TaskContext.release s p) := by
  by_cases hlast : (s.contexts p).copies ≤ 1 ∧ (s.contexts p).held = false
  · rw [TaskContext.release_last hlast]
    exact of_events rfl _ (TaskContext.destroy_trace _ p)
  · rw [TaskContext.release_shared hlast]
    exact of_eq rfl rfl

theorem unwind (what : Option String) (catcher : Option Nat) (fs : List Frame) (s : State) :
    Keeps (fun _ => false) s (State.unwind what catcher fs s) :=
  State.unwind_invariant (I := Keeps (fun _ => false) s) (fun _ _ h => h.trans (of_eq rfl rfl))
    (fun t p h => h.trans (releaseHeld t p)) (fun _ h => h.trans (of_eq rfl rfl))
    (fun _ h => h.trans (of_events rfl [.escaped] rfl))
    (fun _ h => h.trans (of_events rfl [.terminated] rfl)) catcher fs (of_eq rfl rfl)

theorem onResponseReceived (s : State) (c : ConnId) (response : Option ResponseData) :
    Keeps (fun _ => false) s (ClientService.onResponseReceived s c response) :=
  of_events rfl _ (ClientService.onResponseReceived_trace s c response)

theorem command {a : Command} (hc : CommandStep s a t) : Keeps (s.destroys (.command a)) s t := by
  cases hc with
  | makeTimer => exact timerMake s _
  | start => exact (timerStart s _ _ _).trans (of_events rfl _ (State.emit_trace _ _))
  | startPeriodic | waitFuture =>
    exact (startPeriodic s _ _ _).trans (of_events rfl _ (State.emit_trace _ _))
  | stop => exact timerStop s _
  | destroyTimer | disconnect | destroyClient => exact destroy s _ _
  | makeClient | copyContext | send => exact of_eq rfl rfl
  | @makeRequest client overload timeout =>
    have hprepared := prepareRequest s client.service client.maker overload timeout
    have hopen := hprepared.trans (onSocket (ClientConnection.onSocket_opened _ s.connCount))
    have hconnect : Keeps (fun _ => false) s (ClientService.makeRequest s client.service
        client.maker overload true timeout) := hopen.trans (of_eq rfl rfl)
    exact hconnect.trans (of_events rfl _ (State.emit_trace _ _))
  | makeRequestThrows => exact prepareRequest s _ _ _ _
  | postTask => exact (postTask s _).trans (of_events rfl _ (State.emit_trace _ _))
  | releaseContext => exact release s _

theorem step {l : Label} (hstep : Step s l t) : Keeps (s.destroys l) s t := by
  cases hstep with
  | @processRequest processor =>
    cases processor with
    | router => exact of_events rfl [.initialLaunch _] rfl
    | function => exact of_eq rfl rfl
  | @destroyConnection closeErrors =>
    obtain ⟨hdead, hcount, hconns, htrace⟩ := destroy s s.connectionMembers closeErrors
    exact ⟨hdead, hcount, hconns, htrace⟩
  | outside | futureMadeReady | finish => exact of_eq rfl rfl
  | ignored hd => exact delivers hd
  | callback hd | timeout hd | futurePending hd | futureConsumed hd =>
    exact (delivers hd).trans (of_events rfl _ (State.emit_trace _ _))
  | @futureReady _ _ _ _ f _ _ value hd =>
    exact (delivers hd).trans (of_events rfl [.futureQueried f, .futureGot f value] (by simp))
  | @timedOut _ _ _ _ c f u hd =>
    have hemit : Keeps (fun _ => false) u (((u.emit [.timeout c]).push [f]).endRequest c) :=
      of_events rfl [.timeout c] rfl
    exact ((delivers hd).trans hemit).trans (onResponseReceived _ _ _)
  | notConnected hd => exact (delivers hd).trans (onResponseReceived _ _ _)
  | connected hd hv => exact ((delivers hd).trans (onSocket hv)).trans (beginRequest _ _)
  | refused hd hv => exact ((delivers hd).trans (onSocket hv)).trans (onResponseReceived _ _ _)
  | transferred hd _ _ hv => exact (delivers hd).trans (onSocket hv)
  | received hd hv =>
    exact ((delivers hd).trans (onSocket hv)).trans (of_eq rfl rfl)
  | @answered _ _ c response u v hd hv =>
    have hend : Keeps (fun _ => false) v ((v.push [.afterReceive c]).endRequest c) := of_eq rfl rfl
    exact (((delivers hd).trans (onSocket hv)).trans hend).trans (onResponseReceived _ _ _)
  | task hd => exact (delivers hd).trans (of_eq rfl rfl)
  | @discard i p op =>
    have herase : Keeps (fun _ => false) s { s with ops := s.ops.eraseIdx i } := of_eq rfl rfl
    exact herase.trans (releaseHeld _ p)
  | release => exact release s _
  | command _ hc => exact command hc
  | ret =>
    unfold State.returns
    split <;> exact of_eq rfl rfl
  | @throw what catcher code fs =>
    have hemit : Keeps (fun _ => false) s (s.emit [.threw code what]) :=
      of_events rfl _ (State.emit_trace _ _)
    exact hemit.trans (unwind _ _ _ _)
  | runProcessor => exact of_events rfl _ (State.emit_trace _ _)
  | @done _ f fs => exact of_eq rfl rfl
  | @oneShotDone _ u fs =>
    have hpop : Keeps (fun _ => false) s
        (({ s with stack := fs } : State).emit [.returned (.oneShot u)]) :=
      of_events rfl [.returned (.oneShot u)] rfl
    exact hpop.trans (timerStop _ u)
  | @tickDone _ u time task fs =>
    have hpop : Keeps (fun _ => false) s { s with stack := fs } := of_eq rfl rfl
    exact hpop.trans (startPeriodic _ u time task)
  | @futureDone _ u fs =>
    have hpop : Keeps (fun _ => false) s { s with stack := fs } := of_eq rfl rfl
    exact hpop.trans (timerStop _ u)
  | @responseDone _ c fs => exact of_events rfl _ (ClientService.afterResponse_trace _ c)
  | @receiveDone _ c fs v _ hv =>
    have hpop : Keeps (fun _ => false) s { s with stack := fs } := of_eq rfl rfl
    exact hpop.trans (onSocket hv)
  | @taskDone _ p fs =>
    have hpop : Keeps (fun _ => false) s { s with stack := fs } := of_eq rfl rfl
    exact hpop.trans (releaseHeld _ p)
  | @rethrown _ what fs =>
    have hpop : Keeps (fun _ => false) s { s with stack := fs } := of_eq rfl rfl
    exact hpop.trans (unwind _ none _ _)

end Keeps

/-! ## The stack of a step -/

/-- The step throws an exception, or lets one go on. -/
def State.throws (s : State) : Label → Bool
  | .throw _ _ => true
  | .resume _ =>
    match s.stack with
    | .rethrow _ :: _ => true
    | _ => false
  | _ => false

section Frames

variable {s t : State} {l : Label}

theorem TaskContext.stack_subset_release (s : State) (p : PostId) :
    s.stack ⊆ (TaskContext.release s p).stack := by
  by_cases hlast : (s.contexts p).copies ≤ 1 ∧ (s.contexts p).held = false
  · rw [release_last hlast, destroy_stack]
    intro f hf
    exact List.mem_append_right _ (List.mem_append_right _ hf)
  · rw [release_shared hlast]
    exact List.Subset.refl _

theorem TaskContext.stack_subset_releaseHeld (s : State) (p : PostId) :
    s.stack ⊆ (TaskContext.releaseHeld s p).stack := by
  by_cases hlast : (s.contexts p).copies = 0
  · rw [releaseHeld_last hlast, destroy_stack]
    intro f hf
    exact List.mem_append_right _ (List.mem_append_right _ hf)
  · rw [releaseHeld_shared hlast]
    exact List.Subset.refl _

/-- A call returns to the frames it was made from. -/
theorem CommandStep.stack_subset {a : Command} (hc : CommandStep s a t) : s.stack ⊆ t.stack := by
  cases hc with
  | @makeTimer maker =>
    cases maker with
    | none => exact List.Subset.refl _
    | some r =>
      by_cases hr : s.server.responseContext = some r
      · rw [Timer.make_current hr]
        exact List.Subset.refl _
      · rw [Timer.make_expired hr]
        exact List.Subset.refl _
  | stop =>
    rw [TimerService.stop_stack]
    exact List.subset_append_right _ _
  | releaseContext => exact TaskContext.stack_subset_release s _
  | start | startPeriodic | waitFuture | destroyTimer | makeClient | makeRequest
  | makeRequestThrows | disconnect | destroyClient | postTask | copyContext | send =>
    exact List.Subset.refl _

/-- A step that lets no exception go leaves all frames, or all but the innermost. -/
theorem Step.frames (hstep : Step s l t) (hl : s.throws l = false) : s.stack ⊆ t.stack ∨
    ∃ f fs, s.stack = f :: fs ∧ fs ⊆ t.stack ∧
      ((∀ code, f ≠ .user code) → ∃ moves, l = .resume moves) := by
  have hidle : s.stack = [] → s.stack ⊆ t.stack := by
    intro hstack
    rw [hstack]
    exact List.nil_subset _
  cases hstep with
  | processRequest hstack | destroyConnection hstack | outside hstack | discard hstack
  | release hstack => exact Or.inl (hidle hstack)
  | ignored hd | callback hd | timeout hd | timedOut hd | futurePending hd | futureReady hd
  | futureConsumed hd | notConnected hd | connected hd | refused hd | transferred hd | received hd
  | answered hd | task hd => exact Or.inl (hidle hd.stack)
  | finish | futureMadeReady => exact Or.inl (List.Subset.refl _)
  | command _ hc => exact Or.inl hc.stack_subset
  | runProcessor => exact Or.inl (List.subset_cons_self _ _)
  | throw | rethrown hstack =>
    simp [State.throws, *] at hl
  | @ret answer code fs hstack =>
    refine Or.inr ⟨_, fs, hstack, ?_, fun hf => absurd rfl (hf code)⟩
    unfold State.returns
    split <;> exact List.Subset.refl _
  | @done moves f fs hstack =>
    exact Or.inr ⟨f, fs, hstack, List.Subset.refl _, fun _ => ⟨moves, rfl⟩⟩
  | @oneShotDone moves u fs hstack =>
    refine Or.inr ⟨_, fs, hstack, ?_, fun _ => ⟨moves, rfl⟩⟩
    rw [TimerService.stop_stack]
    exact List.subset_append_right _ _
  | @tickDone moves u time task fs hstack =>
    exact Or.inr ⟨_, fs, hstack, List.Subset.refl _, fun _ => ⟨moves, rfl⟩⟩
  | @futureDone moves u fs hstack =>
    refine Or.inr ⟨_, fs, hstack, ?_, fun _ => ⟨moves, rfl⟩⟩
    rw [TimerService.stop_stack]
    exact List.subset_append_right _ _
  | @responseDone moves c fs hstack =>
    refine Or.inr ⟨_, fs, hstack, ?_, fun _ => ⟨moves, rfl⟩⟩
    rw [ClientService.afterResponse_stack]
    exact List.subset_append_right _ _
  | @receiveDone moves c fs v hstack hv =>
    refine Or.inr ⟨_, fs, hstack, ?_, fun _ => ⟨moves, rfl⟩⟩
    rw [hv.stack]
    exact List.Subset.refl _
  | @taskDone moves p fs hstack =>
    refine Or.inr ⟨_, fs, hstack, ?_, fun _ => ⟨moves, rfl⟩⟩
    exact TaskContext.stack_subset_releaseHeld { s with stack := fs } p

/-- `onResponseReceived` goes on after the response handler. -/
theorem State.step_afterResponse {moves : RequesterMoves} {c : ConnId} {fs : List Frame}
    (h : s.step (.resume moves) = some t) (hstack : s.stack = .afterResponse c :: fs) :
    t = ClientService.afterResponse { s with stack := fs } c := by
  unfold State.step at h
  split at h
  · cases h
  · simp only [hstack, State.resume, Option.some.injEq] at h
    exact h.symm

end Frames

/-! ## What a `disconnect()` should do -/

/-- The code after the response handler of one of the connections `p`. -/
def Frame.responds (p : Object → Bool) : Frame → Bool
  | afterResponse c => p (.conn c)
  | _ => false

namespace State

variable (s : State) (c : ConnId)

/-- The queue of the request that the client request was made for, where it has one. -/
def queueOf : Option RequestId :=
  ((s.conns c).service.queue (s.conns c).maker).filter fun r => .initialLaunch r ∈ s.trace

/-- The call of `makeRequest` has returned, and its response handler has not been called. -/
def Unanswered : Prop := 0 < s.trace.countP (·.calls c) ∧ s.trace.countP (·.answers c) = 0

instance : Decidable (s.Unanswered c) := by
  unfold Unanswered
  infer_instance

end State

/-- The operations on the connections that a `disconnect()` of `k` in `s` destroys have been
delivered in `u`, and the response handlers that were called have returned. -/
structure Delivered (s : State) (k : ClientRef) (u : State) : Prop where
  ops : ∀ a ∈ u.ops, a.handler.isOn (ClientService.localConnections s k) = false
  stack : ∀ f ∈ u.stack, f.responds (ClientService.localConnections s k) = false

/-- In `u` the connections that the service `k` had made in `s` are destroyed, and so neither open
nor registered; the response handlers that had not been called are called once, with nothing, and
then their queues are launched. -/
structure DisconnectComplete (s : State) (k : ClientRef) (u : State) : Prop where
  closed : ∀ c < s.connCount, (s.conns c).service = k → u.dead (.conn c) = true
  answered : ∀ c < s.connCount, (s.conns c).service = k → s.Unanswered c →
    u.trace.countP (·.answers c) = 1 ∧ .responseHandler c none ∈ u.trace
  resumed : ∀ c < s.connCount, (s.conns c).service = k → s.Unanswered c → ∀ q ∈ s.queueOf c,
    [.returned (.client c), .queueLaunch (some q) q true] <:+: u.trace

/-- The connections of the service are to local sockets, and those whose request is unanswered
are still connecting. -/
def StillConnecting (s : State) (k : ClientRef) : Prop :=
  ∀ c < s.connCount, (s.conns c).service = k →
    (s.conns c).overload.isLocal ∧ (s.Unanswered c → .connect c ∈ s.handlers)

/-- No exception passes the response handler of a connection of `p`, and when the handler returns
the queue of its request exists and is the one that the service has. -/
def ReturnsToQueue (p : Object → Bool) (s : State) (l : Label) : Prop :=
  (s.throws l → ∀ f ∈ s.stack, f.responds p = false) ∧
    match s.stack with
    | .afterResponse c :: _ =>
      p (.conn c) → ∀ q ∈ s.queueOf c, s.server.lock s.clientQueue = some q
    | _ => True

instance (s : State) (k : ClientRef) : Decidable (StillConnecting s k) := by
  unfold StillConnecting
  infer_instance

instance (p : Object → Bool) (s : State) (l : Label) : Decidable (ReturnsToQueue p s l) := by
  unfold ReturnsToQueue
  split <;> infer_instance

instance (s : State) (k : ClientRef) (u : State) : Decidable (Delivered s k u) :=
  decidable_of_iff ((∀ a ∈ u.ops, a.handler.isOn (ClientService.localConnections s k) = false) ∧
    ∀ f ∈ u.stack, f.responds (ClientService.localConnections s k) = false)
    ⟨fun h => ⟨h.1, h.2⟩, fun h => ⟨h.ops, h.stack⟩⟩

/-! ## The requests that a `disconnect()` answers -/

section Queue

variable {s t : State} {c : ConnId} {q : RequestId}

theorem ClientRef.queue_eq_some {k : ClientRef} {queue : Option RequestId} :
    k.queue queue = some q ↔ k = .connection ∧ queue = some q := by
  cases k <;> simp [ClientRef.queue]

theorem State.queueOf_eq_some : s.queueOf c = some q ↔
    ((s.conns c).service = .connection ∧ (s.conns c).maker = some q) ∧
      .initialLaunch q ∈ s.trace := by
  rw [queueOf, Option.filter_eq_some_iff, ClientRef.queue_eq_some, decide_eq_true_iff]

theorem Keeps.queueOf {p : Object → Bool} (h : Keeps p s t) (hc : c < s.connCount)
    (hq : s.queueOf c = some q) : t.queueOf c = some q := by
  rw [State.queueOf_eq_some] at hq ⊢
  obtain ⟨hservice, hmaker, -⟩ := h.conns c hc
  rw [hservice, hmaker]
  exact ⟨hq.1, h.trace.subset hq.2⟩

/-- The code after the response handler launches the queue of the request, where the service has
it. -/
theorem ClientService.afterResponse_resumes (hq : s.queueOf c = some q)
    (hlock : s.server.lock s.clientQueue = some q) :
    (afterResponse s c).trace =
      s.trace ++ [.returned (.client c), .queueLaunch (some q) q true] := by
  obtain ⟨⟨hservice, hmaker⟩, -⟩ := State.queueOf_eq_some.mp hq
  obtain ⟨hclient, hcurrent⟩ := Server.lock_eq_some.mp hlock
  rw [afterResponse_trace, hservice, hmaker, ClientRef.queue, hclient]
  have halive : s.server.queueAlive q = true := Server.queueAlive_iff.mpr hcurrent
  simp [halive]

end Queue

/-- The response handler of the destroyed connection `c` will be called by its connect handler, or
was called with nothing and has launched, or will launch, the queue. -/
structure Released (queue : Option RequestId) (c : ConnId) (s : State) : Prop where
  made : c < s.connCount
  dead : s.dead (.conn c) = true
  kept : ∀ q ∈ queue, s.queueOf c = some q
  answer : .connect c ∈ s.handlers ∨ .responseHandler c none ∈ s.trace ∧
    (.afterResponse c ∈ s.stack ∨
      ∀ q ∈ queue, [.returned (.client c), .queueLaunch (some q) q true] <:+: s.trace)

namespace Released

variable {queue : Option RequestId} {c : ConnId} {s t : State} {l : Label}

/-- A response handler that is on the stack stays there, or returns to its queue. -/
theorem returns (h : Released queue c s) {p : Object → Bool} (hp : p (.conn c) = true)
    (hguard : ReturnsToQueue p s l) (hrun : s.step l = some t)
    (hmem : .afterResponse c ∈ s.stack) : .afterResponse c ∈ t.stack ∨
      ∀ q ∈ queue, [.returned (.client c), .queueLaunch (some q) q true] <:+: t.trace := by
  have hthrows : s.throws l = false := by
    by_contra hthrows
    have := hguard.1 (by simpa using hthrows) _ hmem
    rw [Frame.responds, hp] at this
    cases this
  rcases (Step.of_step hrun).frames hthrows with hsub | ⟨f, fs, hstack, hsub, hresume⟩
  · exact Or.inl (hsub hmem)
  rw [hstack] at hmem
  rcases List.mem_cons.mp hmem with rfl | hmem
  · obtain ⟨moves, rfl⟩ := hresume nofun
    right
    intro q hq
    have hqueue := h.kept q hq
    have hlock : s.server.lock s.clientQueue = some q := by
      have hreturn := hguard.2
      rw [hstack] at hreturn
      exact hreturn hp q hqueue
    rw [State.step_afterResponse hrun hstack,
      ClientService.afterResponse_resumes (s := { s with stack := fs }) hqueue hlock]
    exact (List.suffix_append _ _).isInfix
  · exact Or.inl (hsub hmem)

theorem step (h : Released queue c s) (hsound : Sound s) {p : Object → Bool}
    (hp : p (.conn c) = true) (hguard : ReturnsToQueue p s l) (hrun : s.step l = some t) :
    Released queue c t := by
  have hstep := Step.of_step hrun
  have hkeeps := Keeps.step hstep
  refine ⟨Nat.lt_of_lt_of_le h.made hkeeps.connCount, ?_, ?_, ?_⟩
  · rw [hkeeps.dead, h.dead, Bool.true_or]
  · exact fun q hq => hkeeps.queueOf h.made (h.kept q hq)
  rcases h.answer with hconnect | ⟨hanswer, hreturn⟩
  swap
  · refine Or.inr ⟨hkeeps.trace.subset hanswer, ?_⟩
    rcases hreturn with hmem | hresumed
    · exact h.returns hp hguard hrun hmem
    · exact Or.inr fun q hq => (hresumed q hq).trans hkeeps.trace.isInfix
  have hstays : (t.tally c).connecting = (s.tally c).connecting → .connect c ∈ t.handlers := by
    intro hsame
    apply List.count_pos_iff.mp
    rw [show t.handlers.count (.connect c) = s.handlers.count (.connect c) from hsame]
    exact List.count_pos_iff.mpr hconnect
  cases Turn.of_step c hstep with
  | quiet hq => exact Or.inl (hstays (by rw [hq.tally]))
  | made hc => exact absurd h.made (hc ▸ Nat.lt_irrefl _)
  | destroyed hd htally => exact Or.inl (hstays (by rw [htally]))
  | @expired i k tm f u hexp hd hk hno =>
    refine Or.inl (hstays ?_)
    show (State.tally (u.emit [.timeout c]) c).connecting = _
    rw [tally_timeout, (Quiet.delivers hd (hk.ne_connect c)).tally]
  | connected hd =>
    obtain ⟨-, hspares⟩ := hsound.delivers hd
    rw [hd.rest] at hspares
    simp [AsyncOp.spares, OpStatus.failed, h.dead] at hspares
  | notConnected hd hq hcount =>
    refine Or.inr ⟨?_, Or.inl ?_⟩
    · rw [ClientService.onResponseReceived_trace]
      simp
    · rw [ClientService.onResponseReceived_stack]
      simp
  | @answered v response htally hcount hmem =>
    have hunfinished := congrArg Tally.unfinished (htally.symm.trans (tally_endRequest hmem))
    have hprog : c ∈ s.inProgress := by
      apply List.count_pos_iff.mp
      rw [show s.inProgress.count c = _ from hunfinished]
      exact Nat.succ_pos _
    have halive := hsound.inProgress c hprog
    rw [h.dead] at halive
    cases halive

end Released

/-! ## The requests that it does not answer -/

/-- A request that neither connects nor is unfinished is in no place it could be answered from. -/
theorem Step.tally_of_lost {s t : State} {l : Label} {c : ConnId} (hstep : Step s l t)
    (hc : c < s.connCount) (hconnecting : (s.tally c).connecting = 0)
    (hunfinished : (s.tally c).unfinished = 0) : t.tally c = s.tally c := by
  cases Turn.of_step c hstep with
  | quiet hq => exact hq.tally
  | made hnew => exact absurd hc (hnew ▸ Nat.lt_irrefl _)
  | destroyed hd htally =>
    rw [htally, ← hunfinished]
  | @expired i k tm f u hexp hd hk hno =>
    exact (tally_timeout u c).trans (Quiet.delivers hd (hk.ne_connect c)).tally
  | connected hd | notConnected hd =>
    rw [hd.tally] at hconnecting
    exact absurd hconnecting (Nat.succ_ne_zero _)
  | @answered v response htally hcount hmem =>
    rw [← htally, tally_endRequest hmem] at hunfinished
    exact absurd hunfinished (Nat.succ_ne_zero _)

/-- A connection is destroyed by a `disconnect()`, and so is to a local socket, or together with
its service. -/
theorem State.destroys_conn {s : State} {l : Label} {c : ConnId}
    (h : s.destroys l (.conn c) = true) : c < s.connCount ∧
      ((s.conns c).overload.isLocal = true ∨
        s.destroys l (.client (s.conns c).service) = true) := by
  unfold State.destroys at h ⊢
  split at h
  case h_1 =>
    simp only [connectionMembers, ClientService.members, Bool.and_eq_true, decide_eq_true_eq] at h ⊢
    exact ⟨h.1, Or.inr h.2⟩
  case h_2 => simp at h
  case h_3 =>
    simp only [ClientService.localConnections, Bool.and_eq_true, decide_eq_true_eq] at h
    exact ⟨h.1.1, Or.inl h.2⟩
  case h_4 =>
    simp only [ClientService.members, Bool.and_eq_true, decide_eq_true_eq] at h ⊢
    exact ⟨h.1, Or.inr h.2⟩
  case h_5 => cases h

/-- The TCP connections of a service live as long as it does. -/
def TcpOutlives (s : State) : Prop :=
  ∀ c, s.dead (.conn c) = true → c < s.connCount ∧
    ((s.conns c).overload.isLocal = true ∨ s.dead (.client (s.conns c).service) = true)

theorem TcpOutlives.step {s t : State} {l : Label} (h : TcpOutlives s) (hstep : Step s l t) :
    TcpOutlives t := by
  have hkeeps := Keeps.step hstep
  intro c hdead
  have hold : c < s.connCount ∧ ((s.conns c).overload.isLocal = true ∨
      t.dead (.client (s.conns c).service) = true) := by
    rw [hkeeps.dead, Bool.or_eq_true] at hdead
    rcases hdead with hdead | hdestroys
    · obtain ⟨hc, hlocal⟩ := h c hdead
      refine ⟨hc, hlocal.imp_right fun hservice => ?_⟩
      rw [hkeeps.dead, hservice, Bool.true_or]
    · obtain ⟨hc, hlocal⟩ := State.destroys_conn hdestroys
      refine ⟨hc, hlocal.imp_right fun hservice => ?_⟩
      rw [hkeeps.dead, hservice, Bool.or_true]
  obtain ⟨hc, hlocal⟩ := hold
  obtain ⟨hservice, -, hoverload⟩ := hkeeps.conns c hc
  rw [hservice, hoverload]
  exact ⟨Nat.lt_of_lt_of_le hc hkeeps.connCount, hlocal⟩

/-- What is known of the states of a run in which completions find their objects. -/
structure Known (s : State) : Prop where
  registered : Registered s
  sound : Sound s
  outlives : TcpOutlives s
  accounts : ∀ c, Accounts c s

theorem Known.step {s t : State} {l : Label} (h : Known s) (hspares : SparesCompletions s l)
    (hstep : Step s l t) : Known t where
  registered := h.registered.step hstep
  sound := h.sound.step h.registered hspares hstep
  outlives := h.outlives.step hstep
  accounts c := (h.accounts c).step hstep

theorem Known.init : Known {} where
  registered := .init
  sound := .init
  outlives _ := nofun
  accounts := .init

/-! ## A `disconnect()` and what follows it -/

section Disconnect

variable {client : ClientHandle} {closeErrors : List String} {m : List Label} {s t u : State}
  {c : ConnId}

theorem step_disconnect
    (ht : runtime.step s (.command (.disconnect client closeErrors)) = some t) :
    Step s (.command (.disconnect client closeErrors)) t ∧
      t = ClientService.disconnect s client.service closeErrors := by
  have hstep : Step s (.command (.disconnect client closeErrors)) t :=
    Step.of_step (show s.step _ = some t from ht)
  refine ⟨hstep, ?_⟩
  cases hstep with
  | command _ hc =>
    cases hc
    rfl

theorem localConnections_conn {k : ClientRef} :
    ClientService.localConnections s k (.conn c) = true ↔
      (c < s.connCount ∧ (s.conns c).service = k) ∧ (s.conns c).overload.isLocal = true := by
  simp [ClientService.localConnections]

/-- A request that is still connecting is released by a `disconnect()`. -/
theorem Released.of_disconnect
    (ht : runtime.step s (.command (.disconnect client closeErrors)) = some t)
    (hc : ClientService.localConnections s client.service (.conn c) = true)
    (hconnect : .connect c ∈ s.handlers) : Released (s.queueOf c) c t := by
  obtain ⟨hstep, hst⟩ := step_disconnect ht
  have hkeeps := Keeps.step hstep
  have hmade : c < s.connCount := (localConnections_conn.mp hc).1.1
  constructor
  · exact Nat.lt_of_lt_of_le hmade hkeeps.connCount
  · rw [hkeeps.dead]
    exact Bool.or_eq_true_iff.mpr (Or.inr hc)
  · exact fun q hq => hkeeps.queueOf hmade hq
  · left
    rw [hst]
    exact State.handlers_abort s _ ▸ hconnect

/-- It stays so as long as completions find their objects and response handlers return. -/
theorem Released.run {queue : Option RequestId} {p : Object → Bool} (h : Released queue c s)
    (hknown : Known s) (hp : p (.conn c) = true)
    (hspares : runtime.EachStep (fun v a _ => SparesCompletions v a) s m)
    (hreturns : runtime.EachStep (fun v a _ => ReturnsToQueue p v a) s m)
    (hm : runtime.run s m = some u) : Released queue c u := by
  have hboth := (hspares.and hreturns).invariant (J := fun v => Known v ∧ Released queue c v)
    (G := fun v a => SparesCompletions v a ∧ ReturnsToQueue p v a) ?_ hm ⟨hknown, h⟩
  · exact hboth.2
  · rintro v a w ⟨hv, hreleased⟩ ⟨hspares, hreturns⟩ hstep
    exact ⟨hv.step hspares (Step.of_step hstep), hreleased.step hv.sound hp hreturns hstep⟩

/-- Once all is delivered and the handlers have returned, a released request is answered. -/
theorem Released.settled {queue : Option RequestId} {k : ClientRef} (h : Released queue c u)
    (haccounts : Accounts c u) (hc : ClientService.localConnections s k (.conn c) = true)
    (hdone : Delivered s k u) :
    (u.trace.countP (·.answers c) = 1 ∧ .responseHandler c none ∈ u.trace) ∧
      ∀ q ∈ queue, [.returned (.client c), .queueLaunch (some q) q true] <:+: u.trace := by
  rcases h.answer with hconnect | ⟨hanswer, hreturn⟩
  · obtain ⟨a, ha, hhandler⟩ := List.mem_map.mp hconnect
    have hoff := hdone.ops a ha
    rw [hhandler, Handler.isOn, hc] at hoff
    cases hoff
  refine ⟨⟨?_, hanswer⟩, ?_⟩
  · have hpos : 0 < (u.tally c).answers :=
      List.countP_pos_iff.mpr ⟨_, hanswer, beq_self_eq_true c⟩
    have hplaces := haccounts.places
    have honce := haccounts.once
    rw [Tally.places] at hplaces
    show (u.tally c).answers = 1
    omega
  · rcases hreturn with hmem | hresumed
    · have hoff := hdone.stack _ hmem
      rw [Frame.responds, hc] at hoff
      cases hoff
    · exact hresumed

/-- The connections that are destroyed by it are destroyed for good. -/
theorem dead_of_disconnect
    (ht : runtime.step s (.command (.disconnect client closeErrors)) = some t)
    (hm : runtime.run t m = some u)
    (hc : ClientService.localConnections s client.service (.conn c) = true) :
    u.dead (.conn c) = true := by
  refine Machine.run_invariant (I := fun v => v.dead (.conn c) = true) ?_ hm ?_
  · intro v a w hdead hstep
    rw [(Keeps.step (Step.of_step hstep)).dead, hdead, Bool.true_or]
  · rw [(Keeps.step (step_disconnect ht).1).dead]
    exact Bool.or_eq_true_iff.mpr (Or.inr hc)

/-- What a run keeps: the captures of a connection. -/
theorem conn_of_run (hm : runtime.run s m = some u) (hc : c < s.connCount) :
    (u.conns c).service = (s.conns c).service ∧ (u.conns c).overload = (s.conns c).overload := by
  have hboth := Machine.run_invariant (I := fun v => c < v.connCount ∧
    (v.conns c).service = (s.conns c).service ∧ (v.conns c).overload = (s.conns c).overload)
    ?_ hm ⟨hc, rfl, rfl⟩
  · exact hboth.2
  · rintro v a w ⟨hlt, hservice, hoverload⟩ hstep
    have hkeeps := Keeps.step (Step.of_step hstep)
    obtain ⟨hservice', -, hoverload'⟩ := hkeeps.conns c hlt
    exact ⟨Nat.lt_of_lt_of_le hlt hkeeps.connCount, hservice'.trans hservice,
      hoverload'.trans hoverload⟩

/-- A request that is in no place is not answered in the rest of a run. -/
theorem tally_of_lost_run (hm : runtime.run s m = some u) (hc : c < s.connCount)
    (hconnecting : (s.tally c).connecting = 0) (hunfinished : (s.tally c).unfinished = 0) :
    u.tally c = s.tally c := by
  have hboth := Machine.run_invariant (I := fun v => c < v.connCount ∧ v.tally c = s.tally c)
    ?_ hm ⟨hc, rfl⟩
  · exact hboth.2
  · rintro v a w ⟨hlt, htally⟩ hstep
    have hstep := Step.of_step hstep
    refine ⟨Nat.lt_of_lt_of_le hlt hstep.connCount_le, ?_⟩
    rw [← htally] at hconnecting hunfinished
    exact (hstep.tally_of_lost hlt hconnecting hunfinished).trans htally

end Disconnect

/-- **What a `disconnect()` completes.** In a run that destroys objects only where completions
spare them, take a call of `disconnect()` after which the response handlers of its connections
return to the queues of their requests. Once what it aborted is delivered, it is complete if the
service's connections were on local sockets and the unanswered ones among them still connecting;
and, as long as the service exists, only then. -/
theorem disconnect_complete {client : ClientHandle} {closeErrors : List String} {l m : List Label}
    {s t u : State} (hs : runtime.run runtime.init l = some s)
    (ht : runtime.step s (.command (.disconnect client closeErrors)) = some t)
    (hu : runtime.run t m = some u)
    (hspares : runtime.EachStep (fun v a _ => SparesCompletions v a) runtime.init
      (l ++ .command (.disconnect client closeErrors) :: m))
    (hreturns : runtime.EachStep (fun v a _ =>
      ReturnsToQueue (ClientService.localConnections s client.service) v a) t m)
    (hdone : Delivered s client.service u) :
    (StillConnecting s client.service → DisconnectComplete s client.service u) ∧
      (u.dead (.client client.service) = false → DisconnectComplete s client.service u →
        StillConnecting s client.service) := by
  obtain ⟨hbefore, hafter⟩ := (Machine.eachStep_append hs).mp hspares
  obtain ⟨hnow, hafter⟩ := (Machine.eachStep_cons_some ht).mp hafter
  have hknown : ∀ v a w, Known v → SparesCompletions v a → runtime.step v a = some w → Known w :=
    fun v a w hv hspares hstep => hv.step hspares (Step.of_step hstep)
  obtain ⟨hstep, hst⟩ := step_disconnect ht
  have hkt : Known t := (hbefore.invariant hknown hs Known.init).step hnow hstep
  have hku : Known u := hafter.invariant hknown hu hkt
  constructor
  · intro hconnecting
    have hlocal : ∀ c < s.connCount, (s.conns c).service = client.service →
        ClientService.localConnections s client.service (.conn c) = true :=
      fun c hc hservice => localConnections_conn.mpr ⟨⟨hc, hservice⟩, (hconnecting c hc hservice).1⟩
    have hsettled := fun c hc hservice hunanswered =>
      have hp := hlocal c hc hservice
      have hreleased := Released.of_disconnect ht hp ((hconnecting c hc hservice).2 hunanswered)
      (hreleased.run hkt hp hafter hreturns hu).settled (hku.accounts c) hp hdone
    constructor
    · exact fun c hc hservice => dead_of_disconnect ht hu (hlocal c hc hservice)
    · exact fun c hc hservice hunanswered => (hsettled c hc hservice hunanswered).1
    · exact fun c hc hservice hunanswered => (hsettled c hc hservice hunanswered).2
  · intro halive hcomplete c hc hservice
    have hrun : runtime.run s (.command (.disconnect client closeErrors) :: m) = some u :=
      (Machine.run_cons_eq_some runtime).mpr ⟨t, ht, hu⟩
    have hlocal : (s.conns c).overload.isLocal = true := by
      obtain ⟨hservice', hoverload⟩ := conn_of_run hrun hc
      obtain ⟨-, hlocal⟩ := hku.outlives c (hcomplete.closed c hc hservice)
      rw [hservice', hservice, hoverload, halive] at hlocal
      exact hlocal.resolve_right Bool.false_ne_true
    refine ⟨hlocal, fun hunanswered => ?_⟩
    -- a request that does not connect is lost with its connection
    by_contra hconnect
    have htally : t.tally c = { s.tally c with unfinished := 0 } := by
      rw [hst]
      exact tally_destroy s (localConnections_conn.mpr ⟨⟨hc, hservice⟩, hlocal⟩) closeErrors
    have hlost := tally_of_lost_run hu (Nat.lt_of_lt_of_le hc hstep.connCount_le)
      (by rw [htally]; exact List.count_eq_zero.mpr hconnect) (by rw [htally])
    have hzero : (u.tally c).answers = 0 := by
      rw [hlost, htally]
      exact hunanswered.2
    have hone : (u.tally c).answers = 1 := (hcomplete.answered c hc hservice hunanswered).1
    omega

/-- A route processor makes a client request and disconnects its client; the aborted connect
answers the request. -/
theorem disconnect_complete_connecting : ∃ s t u,
    runtime.run runtime.init [.processRequest .router, .runProcessor,
      .command (.makeRequest (.responder 0) .localFastcgi true 100)] = some s ∧
    runtime.step s (.command (.disconnect (.responder 0) [])) = some t ∧
    runtime.run t [.ret none, .resume {}, .resume {}, .deliver 1 {}, .ret none, .resume {}]
      = some u ∧
    s.queueOf 0 = some 0 ∧ s.Unanswered 0 ∧ DisconnectComplete s .connection u :=
  ⟨_, _, _, rfl, rfl, rfl, by decide, by decide,
    (disconnect_complete (l := [.processRequest .router, .runProcessor,
        .command (.makeRequest (.responder 0) .localFastcgi true 100)])
      (m := [.ret none, .resume {}, .resume {}, .deliver 1 {}, .ret none, .resume {}]) rfl
      (show runtime.step _ (.command (.disconnect (.responder 0) [])) = some _ from rfl) rfl
      (by decide) (by decide) (by decide)).1 (by decide)⟩

/-- Two requests wait for their responses, one over TCP and one over a local socket, when their
client disconnects: the TCP connection stays, and the response handler of the other request is not
called. -/
theorem disconnect_while_waiting : ∃ s t u, runtime.run runtime.init
      [.outside, .command .makeClient, .command (.makeRequest (.io 0) .tcpFastcgi true 100),
        .command (.makeRequest (.io 0) .localFastcgi true 100), .ret none, .finish 1 none,
        .deliver 1 { sends := [[1]] }, .finish 2 none, .deliver 2 { sends := [[1]] },
        .finish 3 none, .deliver 3 {}, .finish 4 none, .deliver 4 {}, .outside] = some s ∧
    runtime.step s (.command (.disconnect (.io 0) [])) = some t ∧
    runtime.run t [.ret none, .deliver 3 {}] = some u ∧ Delivered s (.io 0) u ∧
    u.dead (.conn 0) = false ∧ s.Unanswered 1 ∧ u.trace.countP (·.answers 1) = 0 ∧ u.faults = [] ∧
    ¬ DisconnectComplete s (.io 0) u := by
  refine ⟨_, _, _, rfl, rfl, rfl, by decide, by decide, by decide, by decide, by decide,
    fun hcomplete => ?_⟩
  have hclosed := hcomplete.closed 0 (by decide) (by decide)
  exact absurd hclosed (by decide)

end Asyncgi
