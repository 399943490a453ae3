import Asyncgi.Timer.Waits

/-!
# The steps of a timer

A step of the runtime, seen from one `TimerService`: it does not concern the timer, or it is one of
the few things that can happen to it. What is proved of timers is proved by cases on these.

## Main definitions

* `TimerStep`: what a step of the runtime is for a timer

## Main results

* `TimerStep.of_step`: every step of the runtime is one of these for every timer
-/

namespace Asyncgi

/-! ## What a step is for a timer -/

/-- An exception is thrown, or goes on. -/
def State.unwinds (s : State) : Label → Bool
  | .throw _ _ => true
  | .resume _ =>
    match s.stack with
    | .rethrow _ :: _ => true
    | _ => false
  | _ => false

/-- The handler of the delivered wait uses a future after its `get()`, which throws. -/
def State.usesConsumed (s : State) : Label → Bool
  | .deliver i _ =>
    match s.ops[i]? with
    | some ⟨.oneShot _ (.checkFuture f), .done none, _⟩
    | some ⟨.periodic _ _ (.checkFuture f), .done none, _⟩ => s.futures f == .consumed
    | _ => false
  | _ => false

/-- The wait that a handler puts on its timer again once the callback has returned. -/
def Handler.rearm : Handler → Option Wait
  | periodic t time task => some (.periodic t time task, time)
  | _ => none

/-- The step `l` from `s`, for the timer `tm` that was `x` and is `y` after it. -/
inductive TimerStep (tm : TimerId) (s : State) (l : Label) (x y : Timing) : Prop
  /-- nothing that concerns the timer; a wait of it may expire -/
  | quiet (horder : s.orderTo tm l = none) (hfires : s.fires tm l = none)
      (hwaits : y.waits = x.waits) (hrearms : y.rearms = x.rearms) (hdead : y.dead = x.dead)
  /-- an exception takes frames off the call stack -/
  | unwound (hl : s.unwinds l) (horder : s.orderTo tm l = none) (hfires : s.fires tm l = none)
      (hwaits : y.waits = x.waits) (hrearms : y.rearms.Sublist x.rearms) (hdead : y.dead = x.dead)
  | ordered {o} (horder : s.orderTo tm l = some o) (hfires : s.fires tm l = none)
      (hwaits : y.waits = x.expired ++ (o.wait tm).toList) (hrearms : y.rearms = x.rearms)
      (hdead : y.dead = x.dead)
  | fired {w : Wait} (horder : s.orderTo tm l = none) (hfires : s.fires tm l = some w)
      (hwaits : (w :: y.waits).Perm x.waits) (hthrows : s.usesConsumed l = false)
      (hrearms : y.rearms = w.1.rearm.toList) (hdead : y.dead = x.dead)
  /-- the callback throws before it reaches user code -/
  | threw {w : Wait} (hl : s.usesConsumed l) (horder : s.orderTo tm l = none)
      (hfires : s.fires tm l = some w) (hwaits : (w :: y.waits).Perm x.waits)
      (hrearms : y.rearms = []) (hdead : y.dead = x.dead)
  /-- the callback stops the timer before it reaches user code -/
  | firedStop {w : Wait} (horder : s.orderTo tm l = some .stop) (hfires : s.fires tm l = some w)
      (hwaits : (w :: y.waits).Perm x.expired) (hrearms : y.rearms = w.1.rearm.toList)
      (hdead : y.dead = x.dead)
  /-- the handler of a one-shot wait ends -/
  | stopped {moves fs} (hl : l = .resume moves) (hstack : s.stack = .afterOneShot tm :: fs)
      (horder : s.orderTo tm l = none)
      (hfires : s.fires tm l = none) (hwaits : y.waits = x.expired)
      (hrearms : y.rearms = x.rearms) (hdead : y.dead = x.dead)
  /-- the handler of a periodic wait ends -/
  | rearmed {moves time task fs} (hl : l = .resume moves)
      (hstack : s.stack = .afterPeriodic tm time task :: fs)
      (horder : s.orderTo tm l = none) (hfires : s.fires tm l = none)
      (hwaits : y.waits = x.expired ++ [(.periodic tm time task, time)])
      (hrearms : x.rearms = (.periodic tm time task, time) :: y.rearms) (hdead : y.dead = x.dead)
  | destroyed (horder : s.orderTo tm l = none) (hfires : s.fires tm l = none)
      (hwaits : y.waits = x.expired) (hrearms : y.rearms = x.rearms) (hdead : y.dead = true)

namespace WaitsFor

variable {u : TimerId} {task : Task} {h : Handler} {k : Frame}

theorem onTimer (hk : WaitsFor u task h k) (tm : TimerId) : h.onTimer tm = (u == tm) := by
  cases hk <;> rfl

/-- The handler of a periodic wait will arm its timer with what it carries. -/
theorem rearm (hk : WaitsFor u task h k) (tm : TimerId) :
    k.rearm tm = if u = tm then h.rearm else none := by
  cases hk with
  | oneShot => simp [Frame.rearm, Handler.rearm]
  | periodic => rfl

/-- A timeout calls the response handler of the request that it cancels. -/
theorem answers_timeout {c : ConnId} (hk : WaitsFor u (.cancelRequest c) h k) {s : State}
    {moves : RequesterMoves} : h.answers s none moves =
      if (s.conns c).cancelSet ∧ c ∈ s.inProgress then some c else none := by
  cases hk <;> simp [Handler.answers]

/-- Only the timeouts of requests call response handlers. -/
theorem answers_eq_none (hk : WaitsFor u task h k) (htask : ∀ c, task ≠ .cancelRequest c)
    {s : State} {error : Option OpError} {moves : RequesterMoves} :
    h.answers s error moves = none := by
  cases hk <;> cases task <;> first | rfl | exact absurd rfl (htask _)

end WaitsFor

namespace TimerStep

variable {tm : TimerId} {s t u : State} {l : Label} {i : Nat} {moves : RequesterMoves} {h : Handler}
  {task : Task} {k : Frame}

theorem of_eq (horder : s.orderTo tm l = none) (hfires : s.fires tm l = none)
    (htiming : t.timing tm = s.timing tm) : TimerStep tm s l (s.timing tm) (t.timing tm) :=
  .quiet horder hfires (by rw [htiming]) (by rw [htiming]) (by rw [htiming])

/-- A delivery that is nothing to the timer, up to the stop of it. -/
theorem of_answer {c : ConnId}
    (horder : s.orderTo tm l = if (s.conns c).timer = tm then some .stop else none)
    (hfires : s.fires tm l = none) (hu : u.timing tm = s.timing tm)
    (hc : (u.conns c).timer = (s.conns c).timer) (response : Option ResponseData) :
    TimerStep tm s l (s.timing tm) ((ClientService.onResponseReceived u c response).timing tm) := by
  by_cases htimer : (s.conns c).timer = tm
  · rw [if_pos htimer] at horder
    rw [State.timing_onResponseReceived u (hc.trans htimer), hu]
    exact .ordered horder hfires (List.append_nil _).symm rfl rfl
  · rw [if_neg htimer] at horder
    rw [State.timing_onResponseReceived_ne u (hc ▸ htimer), hu]
    exact .quiet horder hfires rfl rfl rfl

/-- The connect handler of a client connection. -/
theorem of_connect {c : ConnId} {error : Option OpError} (hd : Delivers s i (.connect c) error u) :
    TimerStep tm s (.deliver i moves) (s.timing tm)
      ((ClientConnection.onConnected u c error moves).timing tm) := by
  obtain ⟨hu, hfires⟩ := hd.timing_other tm moves rfl
  have horder := hd.orderTo_eq tm moves
  have hconns : u.conns = s.conns := by rw [hd.rest]
  cases error with
  | some e =>
    refine of_answer (c := c) ?_ hfires hu (by rw [hconns]) none
    simpa [Handler.answers] using horder
  | none =>
    have hv := (ClientConnection.onSocket_processReading u c).trans
      (ClientConnection.onSocket_runRequester _ c moves)
    have htiming := Eq.trans (State.timing_onSocket hv) hu
    unfold ClientConnection.onConnected
    by_cases haccepts : moves.accepts
    · simp only [haccepts, if_true]
      exact of_eq (by simpa [Handler.answers, haccepts] using horder) hfires htiming
    · simp only [haccepts]
      refine of_answer (c := c) ?_ hfires htiming ?_ none
      · simpa [Handler.answers, haccepts] using horder
      · rw [hv.timer, hconns]

/-- The read handler of a client connection. -/
theorem of_read {c : ConnId} (hd : Delivers s i (.read c) none u) :
    TimerStep tm s (.deliver i moves) (s.timing tm)
      ((ClientConnection.onRead u c none moves).timing tm) := by
  obtain ⟨hu, hfires⟩ := hd.timing_other tm moves rfl
  have horder := hd.orderTo_eq tm moves
  have hv := (OnSocket.use c u).trans (ClientConnection.onSocket_runRequester _ c moves)
  have hpush : ((ClientConnection.runRequester (u.use (.conn c)) c moves).push
      [.afterReceive c]).timing tm = s.timing tm :=
    (State.timing_push _ (by simp [Frame.rearm])).trans ((State.timing_onSocket hv).trans hu)
  have hprog : u.inProgress = s.inProgress := by rw [hd.rest]
  unfold ClientConnection.onRead
  cases hresponse : moves.response with
  | none => exact of_eq (by simpa [Handler.answers, hresponse] using horder) hfires hpush
  | some response =>
    by_cases hc : c ∈ s.inProgress
    · have hc' : c ∈ (ClientConnection.runRequester (u.use (.conn c)) c moves).inProgress := by
        rwa [hv.inProgress, hprog]
      simp only [State.push_inProgress, hc', if_true]
      refine of_answer (c := c) ?_ hfires hpush ?_ (some response)
      · simpa [Handler.answers, hresponse, hc] using horder
      · rw [State.push_conns, hv.timer, hd.rest]
    · have hc' : c ∉ (ClientConnection.runRequester (u.use (.conn c)) c moves).inProgress := by
        rwa [hv.inProgress, hprog]
      simp only [State.push_inProgress, hc', if_false]
      exact of_eq (by simpa [Handler.answers, hresponse, hc] using horder) hfires hpush

/-- An expired wait is delivered; its callback gives the timer no order before it reaches user
code. -/
theorem of_fires (hd : Delivers s i h none u) (hk : WaitsFor tm task h k)
    (horder : s.orderTo tm (.deliver i moves) = none)
    (hthrows : s.usesConsumed (.deliver i moves) = false)
    (hwaits : (t.timing tm).waits = (u.timing tm).waits)
    (hrearms : (t.timing tm).rearms = h.rearm.toList)
    (hdead : (t.timing tm).dead = (u.timing tm).dead) :
    TimerStep tm s (.deliver i moves) (s.timing tm) (t.timing tm) := by
  obtain ⟨delay, hfires, hperm, -, hsame⟩ :=
    hd.timing_fires tm moves (by simp [hk.onTimer])
  exact .fired horder hfires (by rwa [hwaits]) hthrows hrearms (hdead.trans hsame)

/-- The frame of a wait's handler is put on the empty call stack, under others. -/
theorem rearms_push (hstack : u.stack = []) (hk : WaitsFor tm task h k) (fs : List Frame)
    (hfs : ∀ f ∈ fs, f.rearm tm = none) :
    ((u.push (fs ++ [k])).timing tm).rearms = h.rearm.toList := by
  have hkr : k.rearm tm = h.rearm := by rw [hk.rearm, if_pos rfl]
  show ((fs ++ [k]) ++ u.stack).filterMap (Frame.rearm tm) = _
  rw [hstack, List.append_nil, List.filterMap_append, List.filterMap_eq_nil_iff.mpr hfs,
    List.nil_append]
  cases hr : h.rearm with
  | none => rw [List.filterMap_cons_none (hkr.trans hr)]; rfl
  | some w => rw [List.filterMap_cons_some (hkr.trans hr)]; rfl

/-- A wait of another timer is delivered. -/
theorem of_fires_ne {x : TimerId} (hx : x ≠ tm) (hd : Delivers s i h none u)
    (hk : WaitsFor x task h k) (horder : s.orderTo tm (.deliver i moves) = none)
    (htiming : t.timing tm = u.timing tm) :
    TimerStep tm s (.deliver i moves) (s.timing tm) (t.timing tm) := by
  obtain ⟨hu, hfires⟩ := hd.timing_other tm moves (by simpa [hk.onTimer] using hx)
  exact of_eq horder hfires (htiming.trans hu)

/-- A wait is delivered, and its callback pushes frames over that of the handler. -/
theorem of_task {x : TimerId} (fs : List Frame) (hd : Delivers s i h none u)
    (hk : WaitsFor x task h k) (horder : s.orderTo tm (.deliver i moves) = none)
    (hthrows : s.usesConsumed (.deliver i moves) = false) (hfs : ∀ f ∈ fs, f.rearm tm = none)
    (ht : t.timing tm = (u.push (fs ++ [k])).timing tm) :
    TimerStep tm s (.deliver i moves) (s.timing tm) (t.timing tm) := by
  by_cases hx : x = tm
  · subst hx
    refine of_fires hd hk horder hthrows ?_ ?_ ?_
    · rw [ht]
      rfl
    · rw [ht, rearms_push hd.stack_eq hk fs hfs]
    · rw [ht]
      rfl
  · refine of_fires_ne hx hd hk horder (ht.trans (State.timing_push _ fun f hf => ?_))
    rcases List.mem_append.mp hf with hf | hf
    · exact hfs f hf
    · rw [List.mem_singleton.mp hf, hk.rearm, if_neg hx]

/-- What a delivery does with a future. -/
theorem usesConsumed_eq {x : TimerId} (hd : Delivers s i h none u) (hk : WaitsFor x task h k)
    (moves : RequesterMoves) :
    s.usesConsumed (.deliver i moves) = true ↔
      ∃ f, task = .checkFuture f ∧ u.futures f = .consumed := by
  obtain ⟨delay, hop⟩ := hd.op
  rw [hd.rest]
  cases hk <;> cases task <;> simp [State.usesConsumed, hop]

/-- A delivery of a wait, in the cases of its task. -/
theorem of_runTask {x : TimerId} (hreg : Registered s) (hd : Delivers s i h none u)
    (hk : WaitsFor x task h k) :
    TimerStep tm s (.deliver i moves) (s.timing tm) ((u.runTask x k task).timing tm) := by
  have horder := hd.orderTo_eq tm moves
  have hconns : u.conns = s.conns ∧ u.inProgress = s.inProgress := by rw [hd.rest]; exact ⟨rfl, rfl⟩
  have huses := usesConsumed_eq hd hk moves
  cases task with
  | user callback =>
    rw [hk.answers_eq_none (by simp)] at horder
    exact of_task [.user (.timerCallback x callback)] hd hk horder (by simpa using huses)
      (by simp [Frame.rearm]) rfl
  | cancelRequest c =>
    rw [hk.answers_timeout] at horder
    unfold State.runTask ClientConnection.cancelOnTimeout
    simp only [State.push_conns, State.emit_conns, State.push_inProgress, State.emit_inProgress,
      hconns.1, hconns.2]
    split
    next hc =>
      have hfits := (hk.fits (hreg.delivers hd).2).2.2
      have htimer : (s.conns c).timer = x := by
        have htimer : (u.conns c).timer = x := hfits.2
        rwa [hconns.1] at htimer
      rw [if_pos hc] at horder
      have hpush := rearms_push hd.stack_eq hk [] (by simp)
      by_cases hx : x = tm
      · subst hx
        obtain ⟨delay, hfires, -, hperm, hdead⟩ :=
          hd.timing_fires x moves (by simp [hk.onTimer])
        rw [State.timing_onResponseReceived _ (by simpa [hconns.1] using htimer)]
        exact .firedStop (by simpa [htimer] using horder) hfires hperm hpush hdead
      · rw [State.timing_onResponseReceived_ne _ (by simpa [hconns.1, htimer] using hx)]
        refine of_fires_ne (t := ((u.emit [.timeout c]).push [k]).endRequest c) hx hd hk ?_ ?_
        · simpa [htimer, hx] using horder
        · refine State.timing_push (s := u.emit [.timeout c]) _ ?_
          simp [hk.rearm, hx]
    next hc =>
      rw [if_neg hc] at horder
      exact of_task [] hd hk horder (by simpa using huses) (by simp) rfl
  | checkFuture f =>
    rw [hk.answers_eq_none (by simp)] at horder
    unfold State.runTask
    cases hf : u.futures f with
    | pending =>
      simp only [State.emit_futures, hf]
      exact of_task [] hd hk horder (by simpa [hf] using huses) (by simp) rfl
    | ready value =>
      simp only [State.emit_futures, hf]
      exact of_task [.user (.futureCallback f value), .afterFuture x] hd hk horder
        (by simpa [hf] using huses) (by simp [Frame.rearm]) rfl
    | consumed =>
      simp only [State.emit_futures, hf]
      rw [Step.throw_from_handler hk hd.stack_eq]
      by_cases hx : x = tm
      · subst hx
        obtain ⟨delay, hfires, hperm, -, hdead⟩ :=
          hd.timing_fires x moves (by simp [hk.onTimer])
        refine .threw (huses.mpr ⟨f, rfl, hf⟩) horder hfires hperm ?_ hdead
        show u.stack.filterMap (Frame.rearm x) = []
        rw [hd.stack_eq]
        rfl
      · exact of_fires_ne hx hd hk horder rfl

/-- A command that orders something of the timer `x`. -/
theorem of_order {x : TimerId} {o : Order} (horder : s.order l = some (x, o))
    (hfires : s.fires tm l = none)
    (hself : x = tm → t.timing tm =
      { s.timing tm with waits := (s.timing tm).expired ++ (o.wait tm).toList })
    (hother : x ≠ tm → t.timing tm = s.timing tm) :
    TimerStep tm s l (s.timing tm) (t.timing tm) := by
  by_cases hx : x = tm
  · rw [hself hx]
    exact .ordered (o := o) (by simp [State.orderTo, horder, hx]) hfires rfl rfl rfl
  · exact of_eq (by simp [State.orderTo, horder, hx]) hfires (hother hx)

/-- A timer is made and armed for a request. -/
theorem timing_prepareRequest (tm : TimerId) (s : State) (client : ClientRef)
    (maker : Option RequestId) (overload : Overload) (timeout : Milliseconds) :
    (s.timerCount = tm →
      (ClientService.prepareRequest s client maker overload timeout).timing tm =
        (s.timing tm).cancel.arm (.oneShot tm (.cancelRequest s.connCount), timeout)) ∧
    (s.timerCount ≠ tm →
      (ClientService.prepareRequest s client maker overload timeout).timing tm = s.timing tm) := by
  -- what comes before and after the call of `TimerService::start` is nothing to a timer
  have hstart : (ClientService.prepareRequest s client maker overload timeout).timing tm =
      (TimerService.start s s.timerCount timeout (.cancelRequest s.connCount)).timing tm :=
    State.timing_congr rfl rfl rfl
  rw [hstart]
  constructor
  · rintro rfl
    exact State.timing_timerStart s _
  · exact State.timing_timerStart_ne s

theorem of_destroy (horder : s.orderTo tm l = none) (hfires : s.fires tm l = none)
    (p : Object → Bool) (closeErrors : List String)
    (ht : t.timing tm = (s.destroy p closeErrors).timing tm) :
    TimerStep tm s l (s.timing tm) (t.timing tm) := by
  rw [ht]
  cases hp : p (.timer tm) with
  | true =>
    rw [State.timing_destroyed s hp]
    exact .destroyed horder hfires rfl rfl rfl
  | false =>
    rw [State.timing_destroy s hp]
    exact .quiet horder hfires rfl rfl rfl

theorem of_command {c : Command} (hc : CommandStep s c t) :
    TimerStep tm s (.command c) (s.timing tm) (t.timing tm) := by
  cases hc with
  | makeTimer => exact of_eq rfl rfl (State.timing_makeTimer s _)
  | @start x =>
    refine of_order rfl rfl (fun hx => ?_) fun hx => State.timing_timerStart_ne s hx
    subst hx
    exact State.timing_timerStart s x
  | @startPeriodic x | @waitFuture x =>
    refine of_order rfl rfl (fun hx => ?_) fun hx => State.timing_startPeriodic_ne s hx
    subst hx
    exact State.timing_startPeriodic s x
  | @stop x =>
    refine of_order rfl rfl (fun hx => ?_) fun hx => State.timing_timerStop_ne s hx
    subst hx
    rw [State.timing_timerStop s x]
    exact congrArg (fun waits => { s.timing x with waits := waits }) (List.append_nil _).symm
  | destroyTimer | disconnect | destroyClient => exact of_destroy rfl rfl _ _ rfl
  | @makeRequest client overload timeout =>
    have hprepare := timing_prepareRequest tm s client.service client.maker overload timeout
    have hopen : ((ClientService.makeRequest s client.service client.maker overload true
        timeout).emit [.started client.maker (.client s.connCount)]).timing tm =
          (ClientService.prepareRequest s client.service client.maker overload timeout).timing tm :=
      (State.timing_async _ rfl 0).trans rfl
    rw [hopen]
    exact of_order rfl rfl (fun hx => hprepare.1 hx) fun hx => hprepare.2 hx
  | @makeRequestThrows client overload timeout =>
    have hprepare := timing_prepareRequest tm s client.service client.maker overload timeout
    exact of_order rfl rfl (fun hx => hprepare.1 hx) fun hx => hprepare.2 hx
  | @postTask maker =>
    refine of_eq rfl rfl ?_
    simp [State.timing, AsyncOp.live, AsyncOp.expired, AsyncOp.wait, Handler.onTimer]
  | releaseContext => exact of_eq rfl rfl (State.timing_release s _)
  | makeClient | copyContext | send => exact of_eq rfl rfl rfl

/-- A step that only pops a frame which arms no timer. -/
theorem of_pop {moves : RequesterMoves} {f : Frame} {fs : List Frame} (hstack : s.stack = f :: fs)
    (hf : ∀ x, f ≠ .afterFuture x) (hrearm : f.rearm tm = none)
    (ht : t.timing tm = { s with stack := fs }.timing tm) :
    TimerStep tm s (.resume moves) (s.timing tm) (t.timing tm) := by
  refine of_eq ?_ rfl (ht.trans (State.timing_pop hstack hrearm))
  unfold State.orderTo State.order
  rw [hstack]
  cases f <;> first | rfl | exact absurd rfl (hf _)

/-- **Every step of the runtime is one of the steps of a timer.** -/
theorem of_step (hreg : Registered s) (h : s.step l = some t) :
    TimerStep tm s l (s.timing tm) (t.timing tm) := by
  cases Step.of_step h with
  | @processRequest processor =>
    refine of_eq rfl rfl ?_
    cases processor with
    | router =>
      exact State.timing_push (s := s)
        [.launch s.server.requests, .tryBlock s.server.requests] (by simp [Frame.rearm])
    | function =>
      exact State.timing_push (s := s)
        [.user (.requestProcessor s.server.requests), .tryBlock s.server.requests]
        (by simp [Frame.rearm])
  | @destroyConnection closeErrors =>
    exact of_destroy rfl rfl s.connectionMembers closeErrors rfl
  | outside => exact of_eq rfl rfl (State.timing_push _ (by simp [Frame.rearm]))
  | @ignored i moves k e u hd hh =>
    obtain ⟨hu, hfires⟩ := hd.timing_failed tm moves
    refine of_eq ?_ hfires hu
    rw [hd.orderTo_eq]
    rcases hh with hh | ⟨rfl, c, rfl⟩
    · cases k with
      | oneShot _ task | periodic _ _ task => cases task <;> rfl
      | connect | read | write | postedTask => cases hh
    · rfl
  | callback hd hk | timeout hd hk | timedOut hd hk | futurePending hd hk | futureReady hd hk
  | futureConsumed hd hk =>
    rw [hd.handled h]
    cases hk with
    | oneShot => exact of_runTask hreg hd .oneShot
    | periodic time => exact of_runTask hreg hd (.periodic time)
  | notConnected hd | connected hd | refused hd =>
    rw [hd.handled h]
    exact of_connect hd
  | received hd | answered hd =>
    rw [hd.handled h]
    exact of_read hd
  | @transferred i moves k c error u v hd hh herror hv =>
    have hoff : k.onTimer tm = false := by
      cases k <;> simp_all [Handler.transfersOn, Handler.onTimer]
    obtain ⟨hu, hfires⟩ := hd.timing_other tm moves hoff
    by_cases hread : k = .read c ∧ error = none
    · obtain ⟨rfl, rfl⟩ := hread
      rw [hd.handled h]
      exact of_read hd
    · refine of_eq ?_ hfires ((State.timing_onSocket hv).trans hu)
      rw [hd.orderTo_eq]
      cases k <;> simp only [Handler.transfersOn, beq_iff_eq, Bool.false_eq_true] at hh
      case read =>
        subst hh
        have herr : error ≠ none := fun he => hread ⟨rfl, he⟩
        simp [Handler.answers, herr]
      case write => rfl
  | task hd =>
    obtain ⟨hu, hfires⟩ := hd.timing_other tm _ rfl
    refine of_eq ?_ hfires ((State.timing_push _ (by simp [Frame.rearm])).trans hu)
    rw [hd.orderTo_eq]
    rfl
  | @discard i p op hstack hop hp =>
    refine of_eq rfl rfl ((State.timing_releaseHeld _ _).trans ?_)
    have hoff : op.handler.onTimer tm = false := by rw [hp]; rfl
    simp [State.timing, filterMap_eraseIdx hop (AsyncOp.live_eq_none hoff),
      filterMap_eraseIdx hop (AsyncOp.expired_eq_none hoff)]
  | release => exact of_eq rfl rfl (State.timing_release s _)
  | @finish i k delay error hop hwait =>
    refine .quiet rfl rfl ?_ rfl rfl
    have hmap : ({ s with ops := s.ops.set i ⟨k, .done (error.map .other), delay⟩ } : State).ops.map
        (·.live tm) = s.ops.map (·.live tm) := by
      refine State.map_set hop ?_
      by_cases hon : k.onTimer tm
      · have hiswait : k.isWait = true := by
          cases k <;> simp_all [Handler.onTimer, Handler.isWait]
        have herror : error = none := hwait hiswait
        simp [AsyncOp.live, AsyncOp.wait, hon, herror, OpStatus.failed]
      · have hoff : k.onTimer tm = false := by simpa using hon
        rw [AsyncOp.live_eq_none hoff, AsyncOp.live_eq_none hoff]
    have hjoin := congrArg (List.filterMap id) hmap
    simpa [State.timing, List.filterMap_map, Function.comp_def] using hjoin
  | futureMadeReady => exact of_eq rfl rfl rfl
  | command _ hc => exact of_command hc
  | @ret answer code fs hstack =>
    refine of_eq rfl rfl ?_
    have hpop : ({ s with stack := fs } : State).timing tm = s.timing tm :=
      State.timing_pop hstack rfl
    unfold State.returns
    split <;> exact hpop
  | @throw what catcher code fs hstack =>
    obtain ⟨hwaits, hrearms, hdead⟩ :=
      State.timing_unwind tm what catcher fs (s.emit [.threw code what])
    refine .unwound rfl rfl rfl hwaits ?_ hdead
    show List.Sublist _ (s.stack.filterMap (Frame.rearm tm))
    rwa [hstack, List.filterMap_cons_none rfl]
  | runProcessor => exact of_eq rfl rfl (State.timing_push _ (by simp [Frame.rearm]))
  | @done moves f fs hstack hf =>
    refine of_pop hstack ?_ ?_ rfl
    · rintro x rfl
      cases hf
    · cases f <;> first | rfl | cases hf
  | @oneShotDone moves x fs hstack =>
    by_cases hx : x = tm
    · subst hx
      have horder : s.orderTo x (.resume moves) = none := by
        simp [State.orderTo, State.order, hstack]
      have hpop : (({ s with stack := fs } : State).emit [.returned (.oneShot x)]).timing x =
          s.timing x := State.timing_pop (s := s) hstack rfl
      rw [State.timing_timerStop, hpop]
      exact .stopped rfl hstack horder rfl rfl rfl rfl
    · refine of_pop hstack (by simp) rfl ?_
      exact (State.timing_timerStop_ne _ hx).trans rfl
  | @tickDone moves x time task fs hstack =>
    by_cases hx : x = tm
    · subst hx
      have horder : s.orderTo x (.resume moves) = none := by
        simp [State.orderTo, State.order, hstack]
      rw [State.timing_startPeriodic]
      refine .rearmed rfl hstack horder rfl rfl ?_ rfl
      simp [State.timing, Timing.arm, Timing.cancel, hstack, Frame.rearm]
    · exact of_pop hstack (by simp) (if_neg hx) (State.timing_startPeriodic_ne _ hx)
  | @futureDone moves x fs hstack =>
    have horder : s.order (.resume moves) = some (x, .stop) := by simp [State.order, hstack]
    refine of_order horder rfl (fun hx => ?_) fun hx => ?_
    · subst hx
      rw [State.timing_timerStop, State.timing_pop hstack rfl]
      exact congrArg (fun waits => { s.timing x with waits := waits }) (List.append_nil _).symm
    · exact (State.timing_timerStop_ne _ hx).trans (State.timing_pop hstack rfl)
  | responseDone hstack =>
    exact of_pop hstack (by simp) rfl ((State.timing_queueLaunch _ _ _).trans rfl)
  | receiveDone hstack hv => exact of_pop hstack (by simp) rfl (State.timing_onSocket hv)
  | taskDone hstack => exact of_pop hstack (by simp) rfl (State.timing_releaseHeld _ _)
  | @rethrown moves what fs hstack =>
    obtain ⟨hwaits, hrearms, hdead⟩ :=
      State.timing_unwind tm what none fs ({ s with stack := fs } : State)
    refine .unwound ?_ ?_ rfl hwaits ?_ hdead
    · simp [State.unwinds, hstack]
    · simp [State.orderTo, State.order, hstack]
    · show List.Sublist _ (s.stack.filterMap (Frame.rearm tm))
      rwa [hstack, List.filterMap_cons_none rfl]

end TimerStep

end Asyncgi
