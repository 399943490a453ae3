import Asyncgi.Runtime.Registry

/-!
# The answer to a client request

A client request connects, waits for its response, and is answered. Each of the connect handler,
the response and the timeout can answer it. The timeout does so through a shared function object
that is empty until the connection is made, so a timeout that expires before does nothing.

## Main definitions

* `AnsweredOnce`: a request is answered at most once, and exactly once after its timeout
* `ConnectedAtTimeout`: a timeout does not expire before the connection is made
* `Phase`, `Tracks`: where a request is, and what the state holds for it there

## Main results

* `answered_once_iff`: in a run a request is answered once, and no later than its timeout, exactly
  when its timeout does not expire before the connection is made
-/

namespace Asyncgi

/-! ## What is observed of a request -/

/-- The client request that an event is about. -/
def Event.client : Event → Option ConnId
  | started _ (.client c) | timeout c | responseHandler c _ => some c
  | _ => none

/-- A call of `makeRequest` that returns. -/
def Event.calls (c : ConnId) : Event → Bool
  | started _ (.client d) => d == c
  | _ => false

/-- A call of the response handler. -/
def Event.answers (c : ConnId) : Event → Bool
  | responseHandler d _ => d == c
  | _ => false

section Events

variable {c : ConnId} {e : Event}

theorem Event.calls_eq_false (h : e.client ≠ some c) : e.calls c = false := by
  cases e
  case started maker op =>
    cases op
    case client d =>
      rw [calls, beq_eq_false_iff_ne]
      rintro rfl
      exact h rfl
    all_goals rfl
  all_goals rfl

theorem Event.answers_eq_false (h : e.client ≠ some c) : e.answers c = false := by
  cases e
  case responseHandler d response =>
    rw [answers, beq_eq_false_iff_ne]
    rintro rfl
    exact h rfl
  all_goals rfl

end Events

/-- The response handler of a request is called at most once, and exactly once where the callback
of its timeout has run. -/
def AnsweredOnce (c : ConnId) (trace : List Event) : Prop :=
  0 < trace.countP (·.calls c) →
    trace.countP (·.answers c) ≤ 1 ∧ (.timeout c ∈ trace → trace.countP (·.answers c) = 1)

instance (c : ConnId) (trace : List Event) : Decidable (AnsweredOnce c trace) := by
  unfold AnsweredOnce
  infer_instance

/-- The request that a callback is the timeout of. -/
def Task.timeout : Task → Option ConnId
  | cancelRequest c => some c
  | _ => none

def Handler.timeout : Handler → Option ConnId
  | oneShot _ task | periodic _ _ task => task.timeout
  | _ => none

theorem Handler.timeout_of_transfers {c : ConnId} {h : Handler} (hh : h.transfersOn c) :
    h.timeout = none := by
  cases h <;> first | rfl | cases hh

theorem WaitsFor.timeout {u : TimerId} {task : Task} {h : Handler} {k : Frame}
    (hk : WaitsFor u task h k) : h.timeout = task.timeout := by
  cases hk <;> rfl

theorem WaitsFor.ne_connect {u : TimerId} {task : Task} {h : Handler} {k : Frame}
    (hk : WaitsFor u task h k) (c : ConnId) : h ≠ .connect c := by
  cases hk <;> nofun

/-- The request whose timeout expires in a step. -/
def State.expires (s : State) : Label → Option ConnId
  | .deliver i _ =>
    match s.ops[i]? with
    | some ⟨h, .done none, _⟩ => h.timeout
    | _ => none
  | _ => none

/-- The timeout of the request does not expire while its connection is being made. -/
def ConnectedAtTimeout (c : ConnId) (s : State) (l : Label) : Prop :=
  s.expires l = some c → .connect c ∉ s.handlers

instance (c : ConnId) (s : State) (l : Label) : Decidable (ConnectedAtTimeout c s l) := by
  unfold ConnectedAtTimeout
  infer_instance

theorem Delivers.expires {s u : State} {i : Nat} {h : Handler} {error : Option OpError}
    (hd : Delivers s i h error u) (moves : RequesterMoves) :
    s.expires (.deliver i moves) = if error = none then h.timeout else none := by
  obtain ⟨delay, hop⟩ := hd.op
  cases error <;> simp only [State.expires, hop] <;> rfl

/-- The callback of a timeout runs, and either cancels the request or does nothing. -/
theorem Step.timeout_cases {s t : State} {l : Label} {c : ConnId} (hstep : Step s l t)
    (hexp : s.expires l = some c) : ∃ i h tm k u, Delivers s i h none u ∧
      WaitsFor tm (.cancelRequest c) h k ∧
      (¬ ((u.conns c).cancelSet ∧ c ∈ u.inProgress) ∧ t = (u.emit [.timeout c]).push [k] ∨
        c ∈ u.inProgress ∧ t = ClientService.onResponseReceived
          (((u.emit [.timeout c]).push [k]).endRequest c) c none) := by
  cases hstep with
  | timeout hd hk hno =>
    rw [hd.expires, if_pos rfl, hk.timeout] at hexp
    cases hexp
    exact ⟨_, _, _, _, _, hd, hk, Or.inl ⟨hno, rfl⟩⟩
  | timedOut hd hk _ hmem =>
    rw [hd.expires, if_pos rfl, hk.timeout] at hexp
    cases hexp
    exact ⟨_, _, _, _, _, hd, hk, Or.inr ⟨hmem, rfl⟩⟩
  | callback hd hk | futurePending hd hk | futureReady hd hk | futureConsumed hd hk =>
    rw [hd.expires, if_pos rfl, hk.timeout] at hexp
    cases hexp
  | ignored hd | notConnected hd | connected hd | refused hd | received hd | answered hd =>
    rw [hd.expires] at hexp
    cases hexp
  | transferred hd hh =>
    rw [hd.expires, Handler.timeout_of_transfers hh, ite_self] at hexp
    cases hexp
  | task hd =>
    rw [hd.expires] at hexp
    split at hexp <;> cases hexp
  | _ => cases hexp

/-! ## The phases of a request -/

/-- What the state holds of a request: connects, unfinished requests of the requester, and the
calls that were made. -/
structure Tally where
  connecting : Nat
  unfinished : Nat
  calls : Nat
  answers : Nat
  deriving DecidableEq

def State.tally (s : State) (c : ConnId) : Tally where
  connecting := s.handlers.count (.connect c)
  unfinished := s.inProgress.count c
  calls := s.trace.countP (·.calls c)
  answers := s.trace.countP (·.answers c)

/-- Where a client request is. A call of `makeRequest` that throws leaves its number unused. -/
inductive Phase
  | unused
  | connecting
  | unfinished
  | answered
  deriving DecidableEq

def Phase.tally : Phase → Tally
  | unused => ⟨0, 0, 0, 0⟩
  | connecting => ⟨1, 0, 1, 0⟩
  | unfinished => ⟨0, 1, 1, 0⟩
  | answered => ⟨0, 0, 1, 1⟩

/-- The request `c` is in the phase, and its timeout has not left it behind. -/
structure Tracks (c : ConnId) (phase : Phase) (s : State) : Prop where
  tally : s.tally c = phase.tally
  fresh : s.connCount ≤ c → phase = .unused ∧ .timeout c ∉ s.trace
  cancel : phase = .unfinished → (s.conns c).cancelSet = true
  settled : .timeout c ∈ s.trace → phase = .unused ∨ phase = .answered

/-! ## Steps that do not concern the request -/

/-- Nothing of the request `c` has changed from `s` to `t`. -/
structure Quiet (c : ConnId) (s t : State) : Prop where
  tally : t.tally c = s.tally c
  connCount : s.connCount ≤ t.connCount
  cancelSet : c < s.connCount → (t.conns c).cancelSet = (s.conns c).cancelSet
  timeout : .timeout c ∈ t.trace → .timeout c ∈ s.trace

namespace Quiet

variable {c : ConnId} {s t u : State}

theorem trans (h : Quiet c s t) (h' : Quiet c t u) : Quiet c s u where
  tally := h'.tally.trans h.tally
  connCount := Nat.le_trans h.connCount h'.connCount
  cancelSet hc := (h'.cancelSet (Nat.lt_of_lt_of_le hc h.connCount)).trans (h.cancelSet hc)
  timeout he := h.timeout (h'.timeout he)

/-- The events added are about other requests. -/
theorem of_events (hhandlers : t.handlers.count (.connect c) = s.handlers.count (.connect c))
    (hrest : (t.inProgress, t.conns, t.connCount) = (s.inProgress, s.conns, s.connCount))
    (es : List Event) (htrace : t.trace = s.trace ++ es) (hes : ∀ e ∈ es, e.client ≠ some c) :
    Quiet c s t := by
  simp only [Prod.mk.injEq] at hrest
  obtain ⟨hprog, hconns, hcount⟩ := hrest
  have hcalls : es.countP (·.calls c) = 0 := by
    rw [List.countP_eq_zero]
    intro e he
    simp [Event.calls_eq_false (hes e he)]
  have hanswers : es.countP (·.answers c) = 0 := by
    rw [List.countP_eq_zero]
    intro e he
    simp [Event.answers_eq_false (hes e he)]
  constructor
  · simp only [State.tally, hhandlers, hprog, htrace, List.countP_append, hcalls, hanswers,
      Nat.add_zero]
  · exact Nat.le_of_eq hcount.symm
  · intro _
    rw [hconns]
  · intro he
    rw [htrace, List.mem_append] at he
    rcases he with he | he
    · exact he
    · exact absurd rfl (hes _ he)

/-- No event is added. -/
theorem of_eq (hhandlers : t.handlers.count (.connect c) = s.handlers.count (.connect c))
    (hrest : (t.inProgress, t.conns, t.connCount) = (s.inProgress, s.conns, s.connCount))
    (htrace : t.trace = s.trace) : Quiet c s t :=
  of_events hhandlers hrest [] (by rw [htrace, List.append_nil]) (by simp)

theorem use (s : State) (o : Object) : Quiet c s (s.use o) := of_eq rfl rfl rfl

theorem withStack (s : State) (fs : List Frame) : Quiet c s { s with stack := fs } :=
  of_eq rfl rfl rfl

theorem setContext (s : State) (p : PostId) (context : PostAction) :
    Quiet c s (TaskContext.setContext s p context) := of_eq rfl rfl rfl

theorem emit (s : State) (es : List Event) (hes : ∀ e ∈ es, e.client ≠ some c) :
    Quiet c s (s.emit es) := of_events rfl rfl _ rfl hes

theorem queueStop (s : State) (maker q : Option RequestId) : Quiet c s (s.queueStop maker q) :=
  of_events rfl rfl _ rfl (by simp [Event.client])

theorem queueLaunch (s : State) (maker q : Option RequestId) : Quiet c s (s.queueLaunch maker q) :=
  of_events rfl rfl _ rfl (by simp [Event.client])

theorem abort (s : State) (p : Handler → Bool) : Quiet c s (s.abort p) :=
  of_eq (by rw [State.handlers_abort]) rfl rfl

theorem async (s : State) {h : Handler} (hh : h ≠ .connect c) (delay : Milliseconds) :
    Quiet c s (s.async h delay) := by
  refine of_eq ?_ rfl rfl
  rw [State.handlers_async, List.count_append, List.count_singleton]
  simp [hh]

theorem delivers {i : Nat} {h : Handler} {error : Option OpError} (hd : Delivers s i h error t)
    (hh : h ≠ .connect c) : Quiet c s t := by
  have hperm := hd.handlers_perm.count_eq (.connect c)
  rw [List.count_cons_of_ne hh] at hperm
  obtain ⟨-, -, rfl⟩ := hd
  exact of_eq hperm rfl rfl

theorem onSocket {d : ConnId} (h : OnSocket d s t) : Quiet c s t := by
  obtain ⟨new, hnew, htransfers⟩ := h.handlers
  have hzero : new.count (.connect c) = 0 := by
    rw [List.count_eq_zero]
    intro hmem
    exact absurd (htransfers _ hmem) (by simp [Handler.transfersOn])
  constructor
  · simp only [State.tally, hnew, List.count_append, hzero, h.inProgress, h.trace, Nat.add_zero]
  · exact Nat.le_of_eq h.connCount.symm
  · exact fun _ => h.cancelSet c
  · exact fun he => h.trace ▸ he

/-! ### The functions of the runtime -/

theorem stopQueue (s : State) (u : TimerId) : Quiet c s (TimerService.stopQueue s u) :=
  (use s (.timer u)).trans (queueStop _ _ _)

theorem cancelTimer (s : State) (u : TimerId) : Quiet c s (s.cancelTimer u) := abort s _

theorem timerStart (s : State) (u : TimerId) (time : Milliseconds) (task : Task) :
    Quiet c s (TimerService.start s u time task) :=
  ((stopQueue s u).trans (cancelTimer _ u)).trans (async (h := .oneShot u task) _ nofun time)

theorem startPeriodic (s : State) (u : TimerId) (time : Milliseconds) (task : Task) :
    Quiet c s (TimerService.startPeriodic s u time task) :=
  ((stopQueue s u).trans (cancelTimer _ u)).trans (async (h := .periodic u time task) _ nofun time)

theorem timerStop (s : State) (u : TimerId) : Quiet c s (TimerService.stop s u) := by
  have habort : Quiet c s ((s.use (.timer u)).cancelTimer u) :=
    (use s (.timer u)).trans (cancelTimer _ u)
  exact (habort.trans (emit _ _ (by simp [Event.client]))).trans (queueLaunch _ _ _)

theorem timerMake (s : State) (maker : Option RequestId) : Quiet c s (Timer.make s maker) := by
  cases maker with
  | none => exact of_eq rfl rfl rfl
  | some r =>
    by_cases hr : s.server.responseContext = some r
    · rw [Timer.make_current hr]
      exact of_eq rfl rfl rfl
    · rw [Timer.make_expired hr]
      exact of_eq rfl rfl rfl

theorem destroy (s : State) {p : Object → Bool} (hc : p (.conn c) = false)
    (closeErrors : List String) : Quiet c s (s.destroy p closeErrors) where
  tally := by
    have hhandlers : (s.destroy p closeErrors).handlers = s.handlers :=
      State.handlers_abort s (·.isOn p)
    have hprog : (s.destroy p closeErrors).inProgress.count c = s.inProgress.count c :=
      List.count_filter (by simp [hc])
    simp only [State.tally, hhandlers, hprog, State.destroy_trace]
  connCount := Nat.le_refl _
  cancelSet _ := rfl
  timeout := id

/-- The making of another request, or of one that gets no connection. -/
theorem prepareRequest (s : State) (k : ClientRef) (maker : Option RequestId) (overload : Overload)
    (timeout : Milliseconds) :
    Quiet c s (ClientService.prepareRequest s k maker overload timeout) := by
  have hstart : Quiet c s (TimerService.start
      (((s.use (.client k)).queueStop maker (k.queue s.clientQueue)).emplaceTimer
        { owner := .client k }) s.timerCount timeout (.cancelRequest s.connCount)) := by
    refine Quiet.trans ?_ (timerStart _ _ _ _)
    have hstop := (use (c := c) s (.client k)).trans (queueStop _ maker (k.queue s.clientQueue))
    exact hstop.trans (of_eq rfl rfl rfl)
  constructor
  · exact hstart.tally
  · exact Nat.le_succ _
  · intro hc
    rw [ClientService.prepareRequest_conns, Function.update_of_ne (Nat.ne_of_lt hc)]
  · exact hstart.timeout

/-- The socket of the new connection is opened. -/
theorem opened (s : State) (k : ClientRef) (maker : Option RequestId) (overload : Overload)
    (timeout : Milliseconds) :
    Quiet c s (((ClientService.prepareRequest s k maker overload timeout).use
      (.conn s.connCount)).setConn s.connCount fun conn => { conn with isOpen := true }) :=
  (prepareRequest s k maker overload timeout).trans
    (onSocket (ClientConnection.onSocket_opened _ s.connCount))

theorem postTask (s : State) (maker : Option RequestId) :
    Quiet c s (AsioDispatcherService.postTask s maker) := by
  refine of_events ?_ rfl _ (AsioDispatcherService.postTask_trace s maker) (by simp [Event.client])
  simp [State.handlers]

theorem destroyContext (s : State) (p : PostId) : Quiet c s (TaskContext.destroy s p) :=
  of_events rfl rfl _ (TaskContext.destroy_trace s p) (by simp [Event.client])

theorem releaseHeld (s : State) (p : PostId) : Quiet c s (TaskContext.releaseHeld s p) := by
  by_cases hlast : (s.contexts p).copies = 0
  · rw [TaskContext.releaseHeld_last hlast]
    exact (setContext s p _).trans (destroyContext _ p)
  · rw [TaskContext.releaseHeld_shared hlast]
    exact of_eq rfl rfl rfl

theorem release (s : State) (p : PostId) : Quiet c s (TaskContext.release s p) := by
  by_cases hlast : (s.contexts p).copies ≤ 1 ∧ (s.contexts p).held = false
  · rw [TaskContext.release_last hlast]
    exact (setContext s p _).trans (destroyContext _ p)
  · rw [TaskContext.release_shared hlast]
    exact of_eq rfl rfl rfl

theorem unwind (what : Option String) (catcher : Option Nat) (fs : List Frame) (s : State) :
    Quiet c s (State.unwind what catcher fs s) := by
  refine State.unwind_invariant (I := Quiet c s) (fun t fs h => h.trans (withStack t fs))
    (fun t p h => h.trans (releaseHeld t p)) (fun t h => h.trans (of_eq rfl rfl rfl))
    (fun t h => h.trans ?_) (fun t h => h.trans ?_) catcher fs (of_eq rfl rfl rfl)
  · exact of_events rfl rfl [.escaped] rfl (by simp [Event.client])
  · exact of_events rfl rfl [.terminated] rfl (by simp [Event.client])

/-- Another request is answered. -/
theorem onResponseReceived (s : State) {d : ConnId} (hd : d ≠ c) (response : Option ResponseData) :
    Quiet c s (ClientService.onResponseReceived s d response) := by
  refine (timerStop s (s.conns d).timer).trans ?_
  exact of_events rfl rfl [.responseHandler d (response.map (s.conns d).overload.responseOf)]
    rfl (by simp [Event.client, hd])

theorem afterResponse (s : State) (d : ConnId) :
    Quiet c s (ClientService.afterResponse s d) :=
  ((use s (.client (s.conns d).service)).trans
    (emit _ [.returned (.client d)] (by simp [Event.client]))).trans (queueLaunch _ _ _)

theorem beginRequest (s : State) {d : ConnId} (hd : d ≠ c) : Quiet c s (s.beginRequest d) where
  tally := by
    have hprog : (s.beginRequest d).inProgress.count c = s.inProgress.count c := by
      rw [State.beginRequest_inProgress, List.count_append, List.count_singleton]
      simp [hd]
    show Tally.mk _ _ _ _ = Tally.mk _ _ _ _
    rw [hprog]
    rfl
  connCount := Nat.le_refl _
  cancelSet _ := by rw [State.beginRequest_conns, Function.update_of_ne (Ne.symm hd)]
  timeout := id

theorem endRequest (s : State) {d : ConnId} (hd : d ≠ c) : Quiet c s (s.endRequest d) where
  tally := by
    have hprog : (s.endRequest d).inProgress.count c = s.inProgress.count c := by
      rw [State.endRequest_inProgress, List.count_erase_of_ne (Ne.symm hd)]
    show Tally.mk _ _ _ _ = Tally.mk _ _ _ _
    rw [hprog]
    rfl
  connCount := Nat.le_refl _
  cancelSet _ := rfl
  timeout := id

end Quiet

/-! ## The moves of a request -/

/-- The state of the request after the response handler is called. -/
theorem tally_onResponseReceived (s : State) (c : ConnId) (response : Option ResponseData) :
    (ClientService.onResponseReceived s c response).tally c =
      { s.tally c with answers := (s.tally c).answers + 1 } := by
  have hstop := (Quiet.timerStop (c := c) s (s.conns c).timer).tally
  have hemit : (ClientService.onResponseReceived s c response).tally c =
      { (TimerService.stop s (s.conns c).timer).tally c with
        answers := ((TimerService.stop s (s.conns c).timer).tally c).answers + 1 } := by
    simp only [State.tally, Tally.mk.injEq]
    refine ⟨rfl, rfl, ?_, ?_⟩
    · show List.countP _ (_ ++ [_]) = _
      rw [List.countP_append]
      rfl
    · show List.countP _ (_ ++ [_]) = _
      rw [List.countP_append]
      simp [Event.answers]
  rw [hemit, hstop]

/-- The completion of the request's connect is taken. -/
theorem Delivers.tally {s u : State} {i : Nat} {c : ConnId} {error : Option OpError}
    (hd : Delivers s i (.connect c) error u) :
    s.tally c = { u.tally c with connecting := (u.tally c).connecting + 1 } := by
  have hperm := hd.handlers_perm.count_eq (.connect c)
  rw [List.count_cons_self] at hperm
  obtain ⟨-, -, rfl⟩ := hd
  simp only [State.tally, Tally.mk.injEq, and_true]
  exact hperm.symm

/-- A request that the requester has is ended. -/
theorem tally_endRequest {s : State} {c : ConnId} (hc : c ∈ s.inProgress) :
    s.tally c = { (s.endRequest c).tally c with
      unfinished := ((s.endRequest c).tally c).unfinished + 1 } := by
  have hpos := List.count_pos_iff.mpr hc
  have herase : (s.inProgress.erase c).count c = s.inProgress.count c - 1 := List.count_erase_self
  simp only [State.tally, State.endRequest_inProgress, herase, Tally.mk.injEq]
  refine ⟨rfl, ?_, rfl, rfl⟩
  omega

/-- The requester accepts the request. -/
theorem tally_beginRequest (s : State) (c : ConnId) :
    (s.beginRequest c).tally c = { s.tally c with unfinished := (s.tally c).unfinished + 1 } := by
  simp only [State.tally, Tally.mk.injEq]
  refine ⟨rfl, ?_, rfl, rfl⟩
  rw [State.beginRequest_inProgress, List.count_append, List.count_singleton_self]

/-- The expiry of a timeout is no call. -/
theorem tally_timeout (s : State) (c : ConnId) : (s.emit [.timeout c]).tally c = s.tally c := by
  simp only [State.tally, Tally.mk.injEq]
  refine ⟨rfl, rfl, ?_, ?_⟩
  · show List.countP _ (s.trace ++ [_]) = _
    rw [List.countP_append]
    rfl
  · show List.countP _ (s.trace ++ [_]) = _
    rw [List.countP_append]
    rfl

/-- A call of `makeRequest` starts to connect. -/
theorem tally_connect (s : State) (c : ConnId) (maker : Option RequestId) :
    ((s.async (.connect c) 0).emit [.started maker (.client c)]).tally c =
      { s.tally c with
        connecting := (s.tally c).connecting + 1
        calls := (s.tally c).calls + 1 } := by
  simp only [State.tally, Tally.mk.injEq]
  refine ⟨?_, rfl, ?_, ?_⟩
  · show ((s.async (.connect c) 0).handlers).count _ = _
    rw [State.handlers_async, List.count_append, List.count_singleton_self]
  · show List.countP _ (s.trace ++ [_]) = _
    rw [List.countP_append]
    simp [Event.calls]
  · show List.countP _ (s.trace ++ [_]) = _
    rw [List.countP_append]
    rfl

/-- A call of `makeRequest` adds a connect to what there is of the new request. -/
theorem tally_made (s : State) (k : ClientRef) (maker : Option RequestId) (overload : Overload)
    (timeout : Milliseconds) :
    ((ClientService.makeRequest s k maker overload true timeout).emit
        [.started maker (.client s.connCount)]).tally s.connCount =
      { s.tally s.connCount with
        connecting := (s.tally s.connCount).connecting + 1
        calls := (s.tally s.connCount).calls + 1 } := by
  refine (tally_connect _ _ maker).trans ?_
  rw [(Quiet.opened s k maker overload timeout).tally]

/-- The requester of a connection that is destroyed forgets its request. -/
theorem tally_destroy (s : State) {c : ConnId} {p : Object → Bool} (hc : p (.conn c) = true)
    (closeErrors : List String) :
    (s.destroy p closeErrors).tally c = { s.tally c with unfinished := 0 } := by
  have hhandlers : (s.destroy p closeErrors).handlers = s.handlers :=
    State.handlers_abort s (·.isOn p)
  have hprog : (s.destroy p closeErrors).inProgress.count c = 0 := by
    rw [List.count_eq_zero, State.destroy_inProgress, List.mem_filter]
    simp [hc]
  simp only [State.tally, hhandlers, hprog, State.destroy_trace]

/-! ## What a step does to a request -/

/-- The steps from `s`, as far as the request `c` is concerned. -/
inductive Turn (c : ConnId) (s : State) (l : Label) : State → Prop
  | quiet {t} (hq : Quiet c s t) : Turn c s l t
  | made {k maker overload timeout} (hc : s.connCount = c) :
      Turn c s l ((ClientService.makeRequest s k maker overload true timeout).emit
        [.started maker (.client s.connCount)])
  /-- the connection is destroyed -/
  | destroyed {t} (hd : s.destroys l (.conn c) = true)
      (htally : t.tally c = { s.tally c with unfinished := 0 }) : Turn c s l t
  /-- the timeout expires, and there is nothing to cancel -/
  | expired {i h tm f u} (hexp : s.expires l = some c) (hd : Delivers s i h none u)
      (hk : WaitsFor tm (.cancelRequest c) h f)
      (hno : ¬ ((u.conns c).cancelSet ∧ c ∈ u.inProgress)) :
      Turn c s l ((u.emit [.timeout c]).push [f])
  | connected {i u v} (hd : Delivers s i (.connect c) none u) (hq : Quiet c u v)
      (hcount : v.connCount = s.connCount) : Turn c s l (v.beginRequest c)
  /-- the connect handler calls the response handler -/
  | notConnected {i error u v} (hd : Delivers s i (.connect c) error u) (hq : Quiet c u v)
      (hcount : v.connCount = s.connCount) :
      Turn c s l (ClientService.onResponseReceived v c none)
  /-- the handler of the requester's request calls the response handler -/
  | answered {v : State} {response} (htally : v.tally c = s.tally c)
      (hcount : v.connCount = s.connCount) (hmem : c ∈ v.inProgress) :
      Turn c s l (ClientService.onResponseReceived (v.endRequest c) c response)

namespace Turn

variable {c : ConnId} {s t : State} {l : Label}

/-- Objects are destroyed, and with them perhaps the connection. -/
theorem destroy (c : ConnId) {p : Object → Bool} (hp : s.destroys l = p)
    (closeErrors : List String) (hq : Quiet c (s.destroy p closeErrors) t) : Turn c s l t := by
  cases hc : p (.conn c) with
  | false => exact .quiet ((Quiet.destroy s hc closeErrors).trans hq)
  | true =>
    exact .destroyed (hp ▸ hc) (hq.tally.trans (tally_destroy s hc closeErrors))

theorem of_command (c : ConnId) {a : Command} (hc : CommandStep s a t) :
    Turn c s (.command a) t := by
  cases hc with
  | makeTimer => exact .quiet (.timerMake s _)
  | start => exact .quiet ((Quiet.timerStart s _ _ _).trans (.emit _ _ (by simp [Event.client])))
  | startPeriodic | waitFuture =>
    exact .quiet ((Quiet.startPeriodic s _ _ _).trans (.emit _ _ (by simp [Event.client])))
  | stop => exact .quiet (.timerStop s _)
  | destroyTimer | disconnect | destroyClient => exact .destroy c rfl _ (.of_eq rfl rfl rfl)
  | makeClient => exact .quiet (.of_eq rfl rfl rfl)
  | @makeRequest client overload timeout =>
    by_cases hnew : s.connCount = c
    · exact .made hnew
    · refine .quiet ?_
      have hopen := Quiet.opened (c := c) s client.service client.maker overload timeout
      refine (hopen.trans (Quiet.async (h := .connect s.connCount) _ ?_ 0)).trans (.emit _ _ ?_)
      · simpa using hnew
      · simpa [Event.client] using hnew
  | makeRequestThrows => exact .quiet (.prepareRequest s _ _ _ _)
  | postTask =>
    exact .quiet ((Quiet.postTask s _).trans (.emit _ _ (by simp [Event.client])))
  | copyContext => exact .quiet (.setContext s _ _)
  | releaseContext => exact .quiet (.release s _)
  | send => exact .quiet (.of_eq rfl rfl rfl)

/-- **What a step does to a request.** -/
theorem of_step (c : ConnId) (hstep : Step s l t) : Turn c s l t := by
  by_cases hexp : s.expires l = some c
  · obtain ⟨i, k, tm, f, u, hd, hk, hcases⟩ := hstep.timeout_cases hexp
    rcases hcases with ⟨hno, rfl⟩ | ⟨hmem, rfl⟩
    · exact .expired hexp hd hk hno
    · have hu := Quiet.delivers hd (hk.ne_connect c)
      exact .answered (v := (u.emit [.timeout c]).push [f]) ((tally_timeout u c).trans hu.tally)
        (by rw [hd.rest]; rfl) hmem
  cases hstep with
  | @processRequest processor =>
    refine .quiet ?_
    cases processor with
    | router => exact .of_events rfl rfl [.initialLaunch _] rfl (by simp [Event.client])
    | function => exact .of_eq rfl rfl rfl
  | @destroyConnection closeErrors =>
    exact .destroy c (p := s.connectionMembers) rfl closeErrors (.of_eq rfl rfl rfl)
  | outside | futureMadeReady => exact .quiet (.of_eq rfl rfl rfl)
  | ignored hd hh =>
    refine .quiet (.delivers hd ?_)
    rintro rfl
    rcases hh with hh | ⟨-, d, hd⟩
    · cases hh
    · cases hd
  | callback hd hk =>
    have hu := Quiet.delivers (c := c) hd (hk.ne_connect c)
    exact .quiet (hu.trans (.of_events rfl rfl _ rfl (by simp [Event.client])))
  | @timeout _ _ _ _ d _ _ hd hk =>
    have hdc : d ≠ c := by
      rintro rfl
      apply hexp
      rw [hd.expires, if_pos rfl, hk.timeout]
      rfl
    have hu := Quiet.delivers (c := c) hd (hk.ne_connect c)
    exact .quiet (hu.trans (.of_events rfl rfl [.timeout d] rfl
      (by simpa [Event.client] using hdc)))
  | @timedOut _ _ _ _ d f u hd hk =>
    have hdc : d ≠ c := by
      rintro rfl
      apply hexp
      rw [hd.expires, if_pos rfl, hk.timeout]
      rfl
    have hu := Quiet.delivers (c := c) hd (hk.ne_connect c)
    have hemit := hu.trans (.emit _ [.timeout d] (by simpa [Event.client] using hdc))
    have hend := (hemit.trans (.of_eq (t := (u.emit [.timeout d]).push [f]) rfl rfl rfl)).trans
      (.endRequest _ hdc)
    exact .quiet (hend.trans (.onResponseReceived _ hdc _))
  | futurePending hd hk | futureConsumed hd hk =>
    have hu := Quiet.delivers (c := c) hd (hk.ne_connect c)
    exact .quiet (hu.trans (.of_events rfl rfl _ rfl (by simp [Event.client])))
  | @futureReady _ _ _ _ f _ _ value hd hk =>
    have hu := Quiet.delivers (c := c) hd (hk.ne_connect c)
    exact .quiet (hu.trans (.of_events rfl rfl [.futureQueried f, .futureGot f value]
      (by simp) (by simp [Event.client])))
  | @notConnected _ _ d _ _ hd =>
    by_cases hdc : d = c
    · subst hdc
      exact .notConnected hd (.of_eq rfl rfl rfl) (by rw [hd.rest])
    · have hu := Quiet.delivers (c := c) hd (by simpa using hdc)
      exact .quiet (hu.trans (.onResponseReceived _ hdc _))
  | @connected _ _ d u v hd hv =>
    by_cases hdc : d = c
    · subst hdc
      exact .connected hd (.onSocket hv) (by rw [hv.connCount, hd.rest])
    · have hu := (Quiet.delivers (c := c) hd (by simpa using hdc)).trans (.onSocket hv)
      exact .quiet (hu.trans (.beginRequest _ hdc))
  | @refused _ _ d u v hd hv =>
    by_cases hdc : d = c
    · subst hdc
      exact .notConnected hd (.onSocket hv) (by rw [hv.connCount, hd.rest])
    · have hu := (Quiet.delivers (c := c) hd (by simpa using hdc)).trans (.onSocket hv)
      exact .quiet (hu.trans (.onResponseReceived _ hdc _))
  | @transferred _ _ k d _ _ _ hd hh _ hv =>
    refine .quiet ((Quiet.delivers hd ?_).trans (.onSocket hv))
    rintro rfl
    cases hh
  | received hd hv =>
    have hu := (Quiet.delivers (c := c) hd nofun).trans (.onSocket hv)
    exact .quiet (hu.trans (.of_eq rfl rfl rfl))
  | @answered _ _ d response u v hd hv hmem =>
    have hu := (Quiet.delivers (c := c) hd nofun).trans (.onSocket hv)
    by_cases hdc : d = c
    · subst hdc
      exact .answered (v := v.push [.afterReceive d]) hu.tally
        (by rw [State.push_connCount, hv.connCount, hd.rest]) hmem
    · have hend := (hu.trans (.of_eq (t := v.push [.afterReceive d]) rfl rfl rfl)).trans
        (.endRequest _ hdc)
      exact .quiet (hend.trans (.onResponseReceived _ hdc _))
  | task hd =>
    have hu := Quiet.delivers (c := c) hd nofun
    exact .quiet (hu.trans (.of_eq rfl rfl rfl))
  | @discard i p op _ hop hp =>
    have herase : Quiet c s { s with ops := s.ops.eraseIdx i } := by
      have hperm := (State.handlers_eraseIdx hop).count_eq (.connect c)
      rw [hp, List.count_cons_of_ne (show Handler.postedTask p ≠ .connect c from nofun)] at hperm
      exact .of_eq hperm rfl rfl
    exact .quiet (herase.trans (.releaseHeld _ p))
  | release => exact .quiet (.release s _)
  | finish hop =>
    refine .quiet (.of_eq ?_ rfl rfl)
    exact congrArg (List.count _) (State.handlers_set hop rfl)
  | command _ hc => exact .of_command c hc
  | ret =>
    refine .quiet ?_
    unfold State.returns
    split <;> exact .of_eq rfl rfl rfl
  | throw =>
    exact .quiet ((Quiet.emit s _ (by simp [Event.client])).trans (.unwind _ _ _ _))
  | runProcessor => exact .quiet (.of_events rfl rfl _ rfl (by simp [Event.client]))
  | done => exact .quiet (.withStack s _)
  | @oneShotDone _ u fs =>
    have hpop := (Quiet.withStack (c := c) s fs).trans
      (.emit _ [.returned (.oneShot u)] (by simp [Event.client]))
    exact .quiet (hpop.trans (.timerStop _ u))
  | tickDone => exact .quiet ((Quiet.withStack s _).trans (.startPeriodic _ _ _ _))
  | futureDone => exact .quiet ((Quiet.withStack s _).trans (.timerStop _ _))
  | responseDone => exact .quiet ((Quiet.withStack s _).trans (.afterResponse _ _))
  | receiveDone _ hv => exact .quiet ((Quiet.withStack s _).trans (.onSocket hv))
  | taskDone => exact .quiet ((Quiet.withStack s _).trans (.releaseHeld _ _))
  | rethrown => exact .quiet ((Quiet.withStack s _).trans (.unwind _ none _ _))

end Turn

namespace Tracks

variable {c : ConnId} {phase : Phase} {s t u : State}

theorem quiet (h : Tracks c phase s) (hq : Quiet c s t) : Tracks c phase t where
  tally := hq.tally.trans h.tally
  fresh hc := by
    obtain ⟨hunused, htimeout⟩ := h.fresh (Nat.le_trans hq.connCount hc)
    exact ⟨hunused, fun he => htimeout (hq.timeout he)⟩
  cancel hphase := by
    have hc : c < s.connCount := by
      by_contra hlt
      have hunused := (h.fresh (Nat.le_of_not_lt hlt)).1
      rw [hphase] at hunused
      cases hunused
    rw [hq.cancelSet hc]
    exact h.cancel hphase
  settled he := h.settled (hq.timeout he)

/-- What a phase that holds a connect is. -/
theorem connecting_of_pos (h : Tracks c phase s) (hpos : 0 < (s.tally c).connecting) :
    phase = .connecting := by
  rw [h.tally] at hpos
  cases phase <;> first | rfl | cases hpos

theorem unfinished_of_pos (h : Tracks c phase s) (hpos : 0 < (s.tally c).unfinished) :
    phase = .unfinished := by
  rw [h.tally] at hpos
  cases phase <;> first | rfl | cases hpos

/-- A request that was made is answered. -/
theorem answered (h : Tracks c phase s) (hmade : phase ≠ .unused)
    (htally : t.tally c = Phase.answered.tally) (hcount : t.connCount = s.connCount) :
    Tracks c .answered t where
  tally := htally
  fresh hc := absurd (h.fresh (hcount ▸ hc)).1 hmade
  cancel := nofun
  settled _ := Or.inr rfl

/-- The connect handler calls the response handler. -/
theorem answer_connect (h : Tracks c phase s) {i : Nat} {error : Option OpError}
    (hd : Delivers s i (.connect c) error u) (htally : t.tally c = u.tally c)
    (hcount : t.connCount = s.connCount) (response : Option ResponseData) :
    Tracks c .answered (ClientService.onResponseReceived t c response) := by
  have hstally := hd.tally
  obtain rfl : phase = .connecting := h.connecting_of_pos (by rw [hstally]; exact Nat.succ_pos _)
  rw [h.tally, ← htally] at hstally
  refine h.answered nofun ?_ hcount
  rw [tally_onResponseReceived]
  generalize t.tally c = tally at hstally ⊢
  obtain ⟨connecting, unfinished, calls, answers⟩ := tally
  simp only [Phase.tally, Tally.mk.injEq] at hstally ⊢
  omega

/-- The handler of the requester's request calls the response handler. -/
theorem answer_unfinished (h : Tracks c phase s) (htally : t.tally c = s.tally c)
    (hcount : t.connCount = s.connCount) (hc : c ∈ t.inProgress)
    (response : Option ResponseData) :
    Tracks c .answered (ClientService.onResponseReceived (t.endRequest c) c response) := by
  have hend := tally_endRequest hc
  rw [htally] at hend
  obtain rfl : phase = .unfinished := h.unfinished_of_pos (by rw [hend]; exact Nat.succ_pos _)
  rw [h.tally] at hend
  refine h.answered nofun ?_ hcount
  rw [tally_onResponseReceived]
  generalize (t.endRequest c).tally c = tally at hend ⊢
  obtain ⟨connecting, unfinished, calls, answers⟩ := tally
  simp only [Phase.tally, Tally.mk.injEq] at hend ⊢
  omega

/-- The connection is made, and the requester accepts the request. -/
theorem connected (h : Tracks c phase s) {i : Nat} (hd : Delivers s i (.connect c) none u)
    (hq : Quiet c u t) (hcount : t.connCount = s.connCount) :
    Tracks c .unfinished (t.beginRequest c) := by
  have hstally := hd.tally
  obtain rfl : phase = .connecting := h.connecting_of_pos (by rw [hstally]; exact Nat.succ_pos _)
  rw [h.tally, ← hq.tally] at hstally
  constructor
  · rw [tally_beginRequest]
    generalize t.tally c = tally at hstally ⊢
    obtain ⟨connecting, unfinished, calls, answers⟩ := tally
    simp only [Phase.tally, Tally.mk.injEq] at hstally ⊢
    omega
  · intro hc
    exact absurd (h.fresh (hcount ▸ hc)).1 nofun
  · intro _
    simp
  · intro he
    have he : Event.timeout c ∈ s.trace := hd.trace_eq ▸ hq.timeout he
    rcases h.settled he with hphase | hphase <;> cases hphase

/-- A new request is made. -/
theorem made (h : Tracks c phase s) (hc : s.connCount = c) (k : ClientRef)
    (maker : Option RequestId) (overload : Overload) (timeout : Milliseconds) :
    Tracks c .connecting
      ((ClientService.makeRequest s k maker overload true timeout).emit
        [.started maker (.client s.connCount)]) := by
  subst hc
  obtain ⟨rfl, htimeout⟩ := h.fresh (Nat.le_refl _)
  constructor
  · refine (tally_made s k maker overload timeout).trans ?_
    rw [h.tally]
    rfl
  · intro hc
    exact absurd hc (Nat.not_succ_le_self _)
  · nofun
  · intro he
    rcases List.mem_append.mp he with he | he
    · exact absurd ((Quiet.opened s k maker overload timeout).timeout he) htimeout
    · cases List.mem_singleton.mp he

/-- The timeout expires, and there is nothing to cancel. -/
theorem timeout (h : Tracks c phase s) (hreg : Registered s) {i : Nat} {k : Handler} {u : TimerId}
    {f : Frame} {v : State} (hd : Delivers s i k none v) (hk : WaitsFor u (.cancelRequest c) k f)
    (hno : ¬ ((v.conns c).cancelSet ∧ c ∈ v.inProgress)) (hphase : phase ≠ .connecting) :
    Tracks c phase ((v.emit [.timeout c]).push [f]) := by
  have hv : Tracks c phase v := h.quiet (Quiet.delivers hd (hk.ne_connect c))
  obtain ⟨hregv, hfits⟩ := hreg.delivers hd
  have hc : c < v.connCount := (hk.fits hfits).2.2.1
  constructor
  · exact (tally_timeout v c).trans hv.tally
  · intro hle
    exact absurd hc (Nat.not_lt.mpr hle)
  · exact hv.cancel
  · intro _
    cases phase with
    | unused => exact Or.inl rfl
    | answered => exact Or.inr rfl
    | connecting => exact absurd rfl hphase
    | unfinished =>
      have hcount : v.inProgress.count c = 1 := congrArg Tally.unfinished hv.tally
      have hmem : c ∈ v.inProgress := List.count_pos_iff.mp (by omega)
      exact absurd ⟨hv.cancel rfl, hmem⟩ hno

/-- A step that does not destroy the connection leads a tracked request on, unless its timeout
expires while it connects. -/
theorem step (h : Tracks c phase s) (hreg : Registered s) {l : Label}
    (hkept : s.destroys l (.conn c) = false) (hguard : s.expires l = some c → phase ≠ .connecting)
    (hstep : Step s l t) : ∃ next, Tracks c next t := by
  cases Turn.of_step c hstep with
  | quiet hq => exact ⟨phase, h.quiet hq⟩
  | made hc => exact ⟨.connecting, h.made hc _ _ _ _⟩
  | destroyed hd =>
    rw [hkept] at hd
    cases hd
  | expired hexp hd hk hno => exact ⟨phase, h.timeout hreg hd hk hno (hguard hexp)⟩
  | connected hd hq hcount => exact ⟨.unfinished, h.connected hd hq hcount⟩
  | notConnected hd hq hcount => exact ⟨.answered, h.answer_connect hd hq.tally hcount none⟩
  | answered htally hcount hmem => exact ⟨.answered, h.answer_unfinished htally hcount hmem _⟩

/-- A request that is tracked is answered as it should be. -/
theorem answeredOnce (h : Tracks c phase s) : AnsweredOnce c s.trace := by
  intro hcalls
  have hcalls' : s.trace.countP (·.calls c) = phase.tally.calls := congrArg Tally.calls h.tally
  have hanswers : s.trace.countP (·.answers c) = phase.tally.answers :=
    congrArg Tally.answers h.tally
  rw [hcalls'] at hcalls
  rw [hanswers]
  constructor
  · cases phase <;> decide
  · intro htimeout
    rcases h.settled htimeout with rfl | rfl
    · cases hcalls
    · rfl

/-- A timeout that expires while the request connects leaves it behind. -/
theorem not_answeredOnce (h : Tracks c .connecting s) {l : Label} (hexp : s.expires l = some c)
    (hstep : Step s l t) : ¬ AnsweredOnce c t.trace := by
  obtain ⟨i, k, tm, f, u, hd, hk, hcases⟩ := hstep.timeout_cases hexp
  have hu := (Quiet.delivers (c := c) hd (hk.ne_connect c)).tally.trans h.tally
  rcases hcases with ⟨-, rfl⟩ | ⟨hmem, -⟩
  · have htally : ((u.emit [.timeout c]).push [f]).tally c = Phase.connecting.tally :=
      (tally_timeout u c).trans hu
    intro honce
    have hcalls : ((u.emit [.timeout c]).push [f]).trace.countP (·.calls c) = 1 :=
      congrArg Tally.calls htally
    have hanswers : ((u.emit [.timeout c]).push [f]).trace.countP (·.answers c) = 0 :=
      congrArg Tally.answers htally
    have hmem : Event.timeout c ∈ ((u.emit [.timeout c]).push [f]).trace :=
      List.mem_append_right _ List.mem_cons_self
    have hone := (honce (by omega)).2 hmem
    omega
  · have hzero : u.inProgress.count c = 0 := congrArg Tally.unfinished hu
    exact absurd hmem (List.count_eq_zero.mp hzero)

/-- The guard, in terms of the phase. -/
theorem connectedAtTimeout_iff (h : Tracks c phase s) {l : Label} :
    ConnectedAtTimeout c s l ↔ (s.expires l = some c → phase ≠ .connecting) := by
  have hcount : s.handlers.count (.connect c) = phase.tally.connecting :=
    congrArg Tally.connecting h.tally
  refine forall_congr' fun _ => ?_
  rw [← List.count_eq_zero, hcount]
  cases phase <;> decide

theorem init (c : ConnId) : Tracks c .unused {} where
  tally := rfl
  fresh _ := ⟨rfl, List.not_mem_nil⟩
  cancel := nofun
  settled he := absurd he List.not_mem_nil

end Tracks

/-- **A request is answered once, and no later than its timeout.** In a run that does not destroy
the request's connection, the response handler of the request is called at most once, and exactly
once where the callback of its timeout has run, if and only if the timeout does not expire while
the connection is being made. -/
theorem answered_once_iff (c : ConnId) {l : List Label}
    (hkept : runtime.EachStep (fun s a _ => s.destroys a (.conn c) = false) runtime.init l) :
    runtime.EachStep (fun _ _ t => AnsweredOnce c t.trace) runtime.init l ↔
      runtime.EachStep (fun s a _ => ConnectedAtTimeout c s a) runtime.init l := by
  refine Machine.eachStep_iff_of_scope (J := fun s => Registered s ∧ ∃ phase, Tracks c phase s)
    (A := fun s a => s.destroys a (.conn c) = false) ?_ ?_
    ⟨Registered.init, .unused, Tracks.init c⟩ hkept
  · rintro s a t ⟨hreg, phase, htracks⟩ hkept hstep
    have hstep := Step.of_step hstep
    rw [htracks.connectedAtTimeout_iff]
    constructor
    · rintro honce hexp rfl
      exact htracks.not_answeredOnce hexp hstep honce
    · intro hguard
      obtain ⟨next, hnext⟩ := htracks.step hreg hkept hguard hstep
      exact hnext.answeredOnce
  · rintro s a t ⟨hreg, phase, htracks⟩ hkept hguard hstep
    have hstep := Step.of_step hstep
    exact ⟨hreg.step hstep,
      htracks.step hreg hkept (htracks.connectedAtTimeout_iff.mp hguard) hstep⟩

/-- The connection is made, the server is silent, and the timeout answers the request. -/
theorem answered_once_timeout : runtime.EachStep (fun _ _ t => AnsweredOnce 0 t.trace) runtime.init
    [.outside, .command .makeClient, .command (.makeRequest (.io 0) .localFastcgi true 100),
      .ret none, .finish 1 none, .deliver 1 {}, .finish 0 none, .deliver 0 {}, .ret none] :=
  (answered_once_iff 0 (by decide)).mpr (by decide)

/-- The timeout expires before the connection is made, and the server is silent. -/
theorem timeout_before_connection : ∃ s, runtime.run runtime.init
      [.outside, .command .makeClient, .command (.makeRequest (.io 0) .localFastcgi true 100),
        .ret none, .finish 0 none, .deliver 0 {}, .resume {}, .finish 0 none, .deliver 0 {}]
      = some s ∧
    s.handlers = [.read 0] ∧ .timeout 0 ∈ s.trace ∧ s.trace.countP (·.answers 0) = 0 ∧
      ¬ AnsweredOnce 0 s.trace :=
  ⟨_, rfl, by decide, by decide, by decide, by decide⟩

end Asyncgi
