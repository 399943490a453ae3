import Asyncgi.Timer.Step

/-!
# What is asked of a future

Only the delivery of a wait whose callback is that of `Timer::waitFuture` asks anything of the
future: it queries it, and once it is ready reads it.

## Main definitions

* `State.asked`: what a future was asked, and what it is
* `Handler.checks`: the callback of the handler asks the future
* `FutureStep`: what a step of the runtime is for a future

## Main results

* `FutureStep.of_step`: every step of the runtime is one of these for every future
* `futures_read`: a future that is not consumed has not been read
-/

namespace Asyncgi

/-- The future that an event concerns. -/
def Event.future : Event → Option FutureId
  | futureQueried f | futureGot f _ | futureError f => some f
  | _ => none

/-- The callback asks the future `f`. -/
def Handler.checks (f : FutureId) : Handler → Bool
  | oneShot _ (.checkFuture g) | periodic _ _ (.checkFuture g) => g == f
  | _ => false

/-- What the future `f` was asked, and what it is. -/
def State.asked (s : State) (f : FutureId) : List Event × Future :=
  (s.trace.filter fun e => e.future = some f, s.futures f)

namespace State

variable {s t : State} {f : FutureId}

theorem asked_congr (htrace : t.trace = s.trace) (hfutures : t.futures = s.futures) :
    t.asked f = s.asked f := by
  rw [asked, asked, htrace, hfutures]

/-- Events that do not concern the future. -/
theorem asked_events (es : List Event) (htrace : t.trace = s.trace ++ es)
    (hes : ∀ e ∈ es, e.future ≠ some f) (hfutures : t.futures f = s.futures f) :
    t.asked f = s.asked f := by
  have hnone : es.filter (fun e => e.future = some f) = [] := by
    rw [List.filter_eq_nil_iff]
    intro e he
    simpa using hes e he
  rw [asked, asked, htrace, hfutures, List.filter_append, hnone, List.append_nil]

theorem asked_emit (s : State) (es : List Event) (hes : ∀ e ∈ es, e.future ≠ some f) :
    (s.emit es).asked f = s.asked f := asked_events es rfl hes rfl

theorem asked_queueStop (s : State) (maker q : Option RequestId) :
    (s.queueStop maker q).asked f = s.asked f := by
  refine asked_events _ (queueStop_trace s maker q) (fun e he => ?_) rfl
  obtain ⟨r, -, rfl⟩ := List.mem_map.mp he
  nofun

theorem asked_queueLaunch (s : State) (maker q : Option RequestId) :
    (s.queueLaunch maker q).asked f = s.asked f := by
  refine asked_events _ (queueLaunch_trace s maker q) (fun e he => ?_) rfl
  obtain ⟨r, -, rfl⟩ := List.mem_map.mp he
  nofun

theorem asked_onSocket {c : ConnId} (h : OnSocket c s t) : t.asked f = s.asked f :=
  asked_congr h.trace h.futures

section Functions

variable {u : TimerId} {time : Milliseconds} {task : Task}

theorem asked_timerStart (s : State) : (TimerService.start s u time task).asked f = s.asked f :=
  asked_queueStop (s.use (.timer u)) _ _

theorem asked_startPeriodic (s : State) :
    (TimerService.startPeriodic s u time task).asked f = s.asked f :=
  asked_queueStop (s.use (.timer u)) _ _

theorem asked_timerStop (s : State) : (TimerService.stop s u).asked f = s.asked f :=
  (asked_queueLaunch _ _ _).trans (asked_emit (s.use (.timer u)) _ (by simp [Event.future]))

theorem asked_makeTimer (s : State) (maker : Option RequestId) :
    (Timer.make s maker).asked f = s.asked f := by
  cases maker with
  | none => rfl
  | some r =>
    by_cases hr : s.server.responseContext = some r
    · rw [Timer.make_current hr]
      rfl
    · rw [Timer.make_expired hr]

theorem asked_prepareRequest (s : State) (k : ClientRef) (maker : Option RequestId)
    (overload : Overload) (timeout : Milliseconds) :
    (ClientService.prepareRequest s k maker overload timeout).asked f = s.asked f := by
  have hstop := asked_queueStop (f := f) (s.use (.client k)) maker (k.queue s.clientQueue)
  let v := ((s.use (.client k)).queueStop maker (k.queue s.clientQueue)).emplaceTimer
    { owner := .client k }
  have hstart : (TimerService.start v s.timerCount timeout (.cancelRequest s.connCount)).asked f =
      v.asked f := asked_timerStart v
  exact (asked_congr rfl rfl).trans (hstart.trans ((asked_congr rfl rfl).trans hstop))

theorem asked_onResponseReceived (s : State) (c : ConnId) (response : Option ResponseData) :
    (ClientService.onResponseReceived s c response).asked f = s.asked f :=
  (asked_emit (ClientService.reportErrorMsg (TimerService.stop s (s.conns c).timer) _ _)
    _ (by simp [Event.future])).trans (asked_timerStop s)

theorem asked_afterResponse (s : State) (c : ConnId) :
    (ClientService.afterResponse s c).asked f = s.asked f :=
  (asked_queueLaunch _ _ _).trans (asked_emit (s.use _) _ (by simp [Event.future]))

theorem asked_destroyContext (s : State) (p : PostId) :
    (TaskContext.destroy s p).asked f = s.asked f :=
  (asked_queueLaunch _ _ _).trans (asked_emit s _ (by simp [Event.future]))

theorem asked_releaseHeld (s : State) (p : PostId) :
    (TaskContext.releaseHeld s p).asked f = s.asked f := by
  by_cases hlast : (s.contexts p).copies = 0
  · rw [TaskContext.releaseHeld_last hlast]
    exact asked_destroyContext (TaskContext.setContext s p _) p
  · rw [TaskContext.releaseHeld_shared hlast]
    rfl

theorem asked_release (s : State) (p : PostId) :
    (TaskContext.release s p).asked f = s.asked f := by
  by_cases hlast : (s.contexts p).copies ≤ 1 ∧ (s.contexts p).held = false
  · rw [TaskContext.release_last hlast]
    exact asked_destroyContext (TaskContext.setContext s p _) p
  · rw [TaskContext.release_shared hlast]
    rfl

theorem asked_unwind (what : Option String) (catcher : Option Nat) (fs : List Frame) (s : State) :
    (unwind what catcher fs s).asked f = s.asked f :=
  unwind_invariant (I := fun t => t.asked f = s.asked f) (fun _ _ h => h)
    (fun t p h => (asked_releaseHeld t p).trans h) (fun _ h => h)
    (fun t h => (asked_emit t [.escaped] (by simp [Event.future])).trans h)
    (fun t h => (asked_emit t [.terminated] (by simp [Event.future])).trans h) catcher fs rfl

end Functions

end State

theorem Delivers.asked_eq {s u : State} {i : Nat} {h : Handler} {error : Option OpError}
    {f : FutureId} (hd : Delivers s i h error u) : u.asked f = s.asked f := by
  rw [hd.rest]
  rfl

/-- A wait of `waitFuture`. -/
theorem WaitsFor.checks {u : TimerId} {task : Task} {h : Handler} {k : Frame}
    (hk : WaitsFor u task h k) (f : FutureId) : h.checks f = (task == .checkFuture f) := by
  cases hk <;> cases task <;> first | rfl | simp [Handler.checks]

/-- An expired wait that asks the future is delivered. -/
def State.checksNow (s : State) (f : FutureId) (l : Label) : Prop :=
  ∃ u w, s.fires u l = some w ∧ w.1.checks f = true

/-- The step `l` from `s`, for the future `f` that was as `x` says and is as `y` says after it. -/
inductive FutureStep (f : FutureId) (s : State) (l : Label) (x y : List Event × Future) : Prop
  | quiet (hy : y = x)
  | made {value} (hl : l = .futureReady f value) (hx : x.2 = .pending)
      (hy : y = (x.1, .ready value))
  | queried (hchecks : s.checksNow f l) (hx : x.2 = .pending)
      (hy : y = (x.1 ++ [.futureQueried f], .pending))
  | read {value} (hchecks : s.checksNow f l) (hx : x.2 = .ready value)
      (hy : y = (x.1 ++ [.futureQueried f, .futureGot f value], .consumed))
  | failed (hchecks : s.checksNow f l) (hx : x.2 = .consumed)
      (hy : y = (x.1 ++ [.futureQueried f, .futureError f], .consumed))

section Steps

variable {s t u : State} {f : FutureId} {i : Nat} {moves : RequesterMoves} {h : Handler}
  {x : TimerId} {task : Task} {k : Frame}

/-- The delivery of a wait whose task is `checkFuture f`. -/
theorem Delivers.checksNow (hd : Delivers s i h none u) (hk : WaitsFor x (.checkFuture f) h k) :
    s.checksNow f (.deliver i moves) := by
  obtain ⟨delay, hfires, -⟩ := hd.timing_fires x moves (by simp [hk.onTimer])
  exact ⟨x, _, hfires, by simp [hk.checks]⟩

theorem CommandStep.asked {c : Command} (hc : CommandStep s c t) : t.asked f = s.asked f := by
  cases hc with
  | makeTimer => exact State.asked_makeTimer s _
  | start =>
    exact (State.asked_emit _ _ (by simp [Event.future])).trans (State.asked_timerStart s)
  | startPeriodic | waitFuture =>
    exact (State.asked_emit _ _ (by simp [Event.future])).trans (State.asked_startPeriodic s)
  | stop => exact State.asked_timerStop s
  | @makeRequest client overload timeout =>
    have hconnect : (ClientService.makeRequest s client.service client.maker overload true
        timeout).asked f = (ClientService.prepareRequest s client.service client.maker overload
          timeout).asked f := State.asked_congr rfl rfl
    refine (State.asked_emit _ _ (by simp [Event.future])).trans ?_
    exact hconnect.trans (State.asked_prepareRequest s _ _ _ _)
  | makeRequestThrows => exact State.asked_prepareRequest s _ _ _ _
  | postTask =>
    exact (State.asked_emit _ _ (by simp [Event.future])).trans (State.asked_queueStop s _ _)
  | releaseContext => exact State.asked_release s _
  | destroyTimer | disconnect | destroyClient | makeClient | copyContext | send => rfl

/-- The events of a delivery that asks the future come last. -/
theorem Delivers.asked_append {error : Option OpError} (hd : Delivers s i h error u)
    (es : List Event) (htrace : t.trace = u.trace ++ es) (hes : ∀ e ∈ es, e.future = some f) :
    (t.asked f).1 = (s.asked f).1 ++ es := by
  have hu : (u.asked f).1 = (s.asked f).1 := congrArg Prod.fst hd.asked_eq
  have hall : es.filter (fun e => e.future = some f) = es := by
    rw [List.filter_eq_self]
    intro e he
    simpa using hes e he
  rw [← hu, State.asked, htrace, List.filter_append, hall]
  rfl

/-- **Every step of the runtime is one of the steps of a future.** -/
theorem FutureStep.of_step {l : Label} (hstep : Step s l t) :
    FutureStep f s l (s.asked f) (t.asked f) := by
  cases hstep with
  | @processRequest processor =>
    cases processor with
    | router =>
      exact .quiet (State.asked_emit s [.initialLaunch s.server.requests]
        (by simp [Event.future]))
    | function => exact .quiet rfl
  | destroyConnection | outside | finish | done => exact .quiet rfl
  | ignored hd => exact .quiet hd.asked_eq
  | callback hd | timeout hd =>
    exact .quiet ((State.asked_emit _ _ (by simp [Event.future])).trans hd.asked_eq)
  | @timedOut i moves _ _ c k u hd =>
    have hu := (State.asked_emit u [.timeout c] (f := f) (by simp [Event.future])).trans
      hd.asked_eq
    exact .quiet ((State.asked_onResponseReceived _ c _).trans hu)
  | @futurePending i moves _ _ g _ u hd hk hg =>
    by_cases hgf : g = f
    · subst hgf
      have hsame : s.futures g = u.futures g := by rw [hd.rest]
      refine .queried (hd.checksNow hk) (hsame.trans hg) (Prod.ext ?_ hg)
      exact hd.asked_append _ rfl (by simp [Event.future])
    · exact .quiet ((State.asked_emit u _ (by simpa [Event.future] using hgf)).trans hd.asked_eq)
  | @futureReady i moves _ _ g _ u value hd hk hg =>
    by_cases hgf : g = f
    · subst hgf
      have hsame : s.futures g = u.futures g := by rw [hd.rest]
      refine .read (hd.checksNow hk) (hsame.trans hg) (Prod.ext ?_ (Function.update_self ..))
      exact hd.asked_append _ (by simp) (by simp [Event.future])
    · refine .quiet ((State.asked_events (s := u) [.futureQueried g, .futureGot g value]
        ?_ ?_ ?_).trans hd.asked_eq)
      · simp
      · simpa [Event.future] using hgf
      · exact Function.update_of_ne (Ne.symm hgf) _ _
  | @futureConsumed i moves _ _ g _ u hd hk hg =>
    by_cases hgf : g = f
    · subst hgf
      have hsame : s.futures g = u.futures g := by rw [hd.rest]
      refine .failed (hd.checksNow hk) (hsame.trans hg) (Prod.ext ?_ hg)
      -- the exception that follows concerns no future
      have herror : ((u.emit [.futureQueried g, .futureError g]).emit [.escaped]).asked g =
          (u.emit [.futureQueried g, .futureError g]).asked g :=
        State.asked_emit _ _ (by simp [Event.future])
      have happend := hd.asked_append (t := u.emit [.futureQueried g, .futureError g]) _ rfl
        (f := g) (by simp [Event.future])
      rw [← herror] at happend
      simpa [State.asked, State.emit] using happend
    · exact .quiet ((State.asked_emit u _ (by simpa [Event.future] using hgf)).trans hd.asked_eq)
  | notConnected hd => exact .quiet ((State.asked_onResponseReceived _ _ _).trans hd.asked_eq)
  | connected hd hv | transferred hd _ _ hv | received hd hv =>
    exact .quiet ((State.asked_onSocket hv).trans hd.asked_eq)
  | refused hd hv | answered hd hv =>
    exact .quiet ((State.asked_onResponseReceived _ _ _).trans
      ((State.asked_onSocket hv).trans hd.asked_eq))
  | task hd => exact .quiet hd.asked_eq
  | discard => exact .quiet (State.asked_releaseHeld _ _)
  | release => exact .quiet (State.asked_release s _)
  | @futureMadeReady g value hg =>
    by_cases hgf : g = f
    · subst hgf
      exact .made rfl hg (Prod.ext rfl (Function.update_self ..))
    · exact .quiet (State.asked_events [] (List.append_nil _).symm (by simp)
        (Function.update_of_ne (Ne.symm hgf) _ _))
  | command _ hc => exact .quiet hc.asked
  | ret =>
    refine .quiet ?_
    unfold State.returns
    split <;> rfl
  | throw =>
    exact .quiet
      ((State.asked_unwind _ _ _ _).trans (State.asked_emit s _ (by simp [Event.future])))
  | runProcessor => exact .quiet (State.asked_emit s _ (by simp [Event.future]))
  | @oneShotDone moves x fs =>
    exact .quiet ((State.asked_timerStop _).trans
      (State.asked_emit { s with stack := fs } _ (by simp [Event.future])))
  | tickDone => exact .quiet (State.asked_startPeriodic _)
  | futureDone => exact .quiet (State.asked_timerStop _)
  | responseDone => exact .quiet (State.asked_afterResponse _ _)
  | receiveDone _ hv => exact .quiet ((State.asked_onSocket hv).trans rfl)
  | taskDone => exact .quiet (State.asked_releaseHeld _ _)
  | rethrown => exact .quiet (State.asked_unwind _ none _ _)

end Steps

/-- A wait that asks the future is delivered by the event loop. -/
theorem State.checksNow_stack {s t : State} {f : FutureId} {l : Label} (h : s.checksNow f l)
    (hstep : s.step l = some t) : s.stack = [] := by
  obtain ⟨u, w, hfires, -⟩ := h
  cases l <;> simp only [State.fires, reduceCtorEq] at hfires
  exact State.step_deliver hstep

/-- A future that has been read, and that no wait asks, is left alone. -/
theorem State.asked_consumed {s t : State} {f : FutureId} {l : Label} (hstep : s.step l = some t)
    (hf : (s.asked f).2 = .consumed) (hchecks : ¬ s.checksNow f l) : t.asked f = s.asked f := by
  cases FutureStep.of_step (f := f) (Step.of_step hstep) with
  | quiet hy => exact hy
  | made _ hx =>
    rw [hf] at hx
    cases hx
  | queried hnow | read hnow | failed hnow => exact absurd hnow hchecks

/-! ## Reading -/

/-- The values that a future was read as. -/
def State.gets (s : State) (f : FutureId) : List Nat :=
  s.trace.filterMap fun
    | .futureGot g value => if g = f then some value else none
    | _ => none

/-- How often a future was queried, or used after it was read. -/
def State.queries (s : State) (f : FutureId) : Nat :=
  s.trace.countP fun
    | .futureQueried g | .futureError g => g == f
    | _ => false

section Reading

variable {s t : State} {f : FutureId}

/-- What a future was read as, and how often it was queried, is part of what it was asked. -/
theorem State.gets_eq (s : State) (f : FutureId) : s.gets f = (s.asked f).1.filterMap fun
    | .futureGot g value => if g = f then some value else none
    | _ => none := by
  unfold gets asked
  rw [List.filterMap_filter]
  apply List.filterMap_congr
  intro e _
  cases e <;> simp [Event.future]

theorem State.queries_eq (s : State) (f : FutureId) : s.queries f = (s.asked f).1.countP fun
    | .futureQueried g | .futureError g => g == f
    | _ => false := by
  unfold queries asked
  rw [List.countP_filter]
  apply List.countP_congr
  intro e _
  cases e <;> simp [Event.future]

/-- A future that is not consumed has not been read. -/
theorem futures_read (hreach : runtime.Reachable s) (hf : s.futures f ≠ .consumed) :
    s.gets f = [] := by
  refine hreach.invariant (I := fun s => s.futures f ≠ .consumed → s.gets f = []) (fun _ => rfl)
    (fun s l t hs hstep hf => ?_) hf
  have hs : (s.asked f).2 ≠ .consumed → s.gets f = [] := hs
  have hf : (t.asked f).2 ≠ .consumed := hf
  rw [State.gets_eq] at hs ⊢
  cases FutureStep.of_step (f := f) (Step.of_step hstep) with
  | quiet hy =>
    rw [hy] at hf ⊢
    exact hs hf
  | made _ hx hy =>
    rw [hy]
    exact hs (by rw [hx]; nofun)
  | queried _ hx hy =>
    rw [hy, List.filterMap_append, hs (by rw [hx]; nofun)]
    rfl
  | read _ _ hy | failed _ _ hy =>
    rw [hy] at hf
    exact absurd rfl hf

end Reading

end Asyncgi
