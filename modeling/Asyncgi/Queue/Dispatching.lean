import Asyncgi.Queue.Posting
import Asyncgi.Timer.Waits
import Asyncgi.Transition.Entries
import Asyncgi.Transition.Simulation

/-!
# The posted tasks of the runtime

The runtime posts tasks among all else it does: closures are operations that asio holds, tasks that
run are frames of the call stack, exceptions unwind them, and queues come and go with the requests.
Seen from its posted tasks, a run of the runtime is a run of an `AsioDispatcher`, as long as user
code copies only contexts that it was given.

## Main definitions

* `actionLaunches`: the queues that the destructor of a task's action launches, read off the trace
* `SamePosts s t`: nothing has happened to the posted tasks between `s` and `t`
* `Agrees s d`: the posted tasks of the runtime are those of the service `d`
* `TaskLaunches s p`: what the destructors of the task's contexts have launched by now

## Main results

* `Follows.step`: a step of the runtime is matched by the service
* `refines_dispatcher`: what the runtime makes of its posted tasks, the service can make of them
* `task_launches`: a posted task launches its queue once, when the last copy of its context is
  destroyed
-/

namespace Asyncgi

/-- The task whose posted closure is the handler. -/
def Handler.posted : Handler → Option PostId
  | postedTask p => some p
  | _ => none

/-- The task that the frame is the closure of. -/
def Frame.task : Frame → Option PostId
  | taskHandler p => some p
  | _ => none

namespace State

variable (s : State)

/-- The tasks whose closures wait to be run. -/
def tasksPosted : List PostId := s.handlers.filterMap Handler.posted

/-- The tasks whose closures are being run, the innermost first. -/
def tasksRunning : List PostId := s.stack.filterMap Frame.task

end State

theorem State.tasksPosted_eq (s : State) :
    s.tasksPosted = s.ops.filterMap fun op => op.handler.posted := List.filterMap_map

/-- The queues that the destructor of the task's action has launched: a launch that comes right
after the destruction of a context is the action's. -/
def actionLaunches (p : PostId) : List Event → List RequestId
  | [] => []
  | .contextDestroyed r :: .queueLaunch _ q _ :: es =>
    (if r = p then [q] else []) ++ actionLaunches p es
  | _ :: es => actionLaunches p es

/-- The events destroy no context, and go on with the destruction of none. -/
structure Unrelated (es : List Event) : Prop where
  first : ∀ m q b fs, es ≠ .queueLaunch m q b :: fs
  contexts : ∀ p, .contextDestroyed p ∉ es

namespace Unrelated

variable {es fs : List Event} {p : PostId}

theorem nil : Unrelated [] := ⟨nofun, nofun⟩

theorem append (h : Unrelated es) (h' : Unrelated fs) : Unrelated (es ++ fs) where
  first m q b gs hgs := by
    cases es with
    | nil => exact h'.first m q b gs hgs
    | cons e es =>
      obtain ⟨rfl, -⟩ := List.cons.inj hgs
      exact h.first m q b es rfl
  contexts r hr := (List.mem_append.mp hr).elim (h.contexts r) (h'.contexts r)

theorem one {e : Event} (hlaunch : ∀ m q b, e ≠ .queueLaunch m q b)
    (hcontext : ∀ p, e ≠ .contextDestroyed p) : Unrelated [e] where
  first m q b _ h := hlaunch m q b (List.cons.inj h).1
  contexts p h := hcontext p (List.mem_singleton.mp h).symm

theorem stops (maker q : Option RequestId) (alive : RequestId → Bool) :
    Unrelated (q.toList.map fun q => .queueStop maker q (alive q)) := by
  cases q with
  | none => exact .nil
  | some q => exact one nofun nofun

/-- An event that is not a launch, and the launch of a queue after it. -/
theorem launches {e : Event} (h : Unrelated [e]) (maker q : Option RequestId)
    (alive : RequestId → Bool) :
    Unrelated (e :: q.toList.map fun q => .queueLaunch maker q (alive q)) where
  first m r b _ heq := h.first m r b [] (by rw [(List.cons.inj heq).1])
  contexts p hp := by
    rcases List.mem_cons.mp hp with rfl | hp
    · exact h.contexts p (List.mem_singleton_self _)
    · simp at hp

end Unrelated

section Launches

variable {p : PostId} {e : Event} {es fs : List Event}

theorem actionLaunches_cons (h : ∀ m q b gs, es ≠ .queueLaunch m q b :: gs) :
    actionLaunches p (e :: es) = actionLaunches p es := by
  rw [actionLaunches]
  rintro r m q b gs - rfl
  exact h m q b gs rfl

theorem actionLaunches_other (h : ∀ r, e ≠ .contextDestroyed r) :
    actionLaunches p (e :: es) = actionLaunches p es := by
  rw [actionLaunches]
  rintro r m q b gs rfl
  exact absurd rfl (h r)

theorem actionLaunches_append (es : List Event) (h : ∀ m q b gs, fs ≠ .queueLaunch m q b :: gs) :
    actionLaunches p (es ++ fs) = actionLaunches p es ++ actionLaunches p fs := by
  induction es using actionLaunches.induct with
  | case1 => rfl
  | case2 r m q b es ih =>
    rw [List.cons_append, List.cons_append, actionLaunches, actionLaunches, ih,
      List.append_assoc]
  | case3 e es hne ih =>
    rw [List.cons_append]
    by_cases he : ∃ r, e = .contextDestroyed r
    · obtain ⟨r, rfl⟩ := he
      have hes : ∀ m q b gs, es ≠ .queueLaunch m q b :: gs := fun m q b gs heq =>
        hne r m q b gs rfl heq
      rw [actionLaunches_cons hes, actionLaunches_cons, ih]
      intro m q b gs heq
      rcases es with _ | ⟨e, es⟩
      · exact h m q b gs heq
      · obtain ⟨rfl, -⟩ := List.cons.inj heq
        exact hes m q b es rfl
    · have hother : ∀ r, e ≠ .contextDestroyed r := fun r her => he ⟨r, her⟩
      rw [actionLaunches_other hother, actionLaunches_other hother, ih]

theorem actionLaunches_eq_nil (h : ∀ r, .contextDestroyed r ∉ es) : actionLaunches p es = [] := by
  induction es with
  | nil => rfl
  | cons e es ih =>
    rw [actionLaunches_other fun r her => h r (her ▸ List.mem_cons_self)]
    exact ih fun r hr => h r (List.mem_cons_of_mem _ hr)

/-- Events that are nothing to the contexts launch nothing. -/
theorem Unrelated.actionLaunches_append (h : Unrelated fs) (es : List Event) :
    actionLaunches p (es ++ fs) = actionLaunches p es := by
  rw [Asyncgi.actionLaunches_append es h.first, actionLaunches_eq_nil h.contexts, List.append_nil]

/-- The destructor of an action launches its queue, where that exists. -/
theorem actionLaunches_destroy (r : PostId) (maker queue : Option RequestId)
    (alive : RequestId → Bool) :
    actionLaunches p (es ++ .contextDestroyed r ::
        queue.toList.map fun q => .queueLaunch maker q (alive q)) =
      actionLaunches p es ++ if r = p then queue.toList else [] := by
  rw [Asyncgi.actionLaunches_append es fun _ _ _ _ h => by cases h]
  congr 1
  cases queue with
  | none => simp [actionLaunches]
  | some q => simp [actionLaunches]

end Launches

/-! ## Steps that do not concern posted tasks -/

/-- What posted tasks depend on, the operations and the call stack apart. -/
def State.posts (s : State) :
    Option RequestId × RequestId × Option RequestId × (PostId → PostAction) × PostId :=
  (s.server.responseContext, s.server.requests, s.dispatcherQueue, s.contexts, s.postCount)

/-- Nothing has happened to the posted tasks, and to what they depend on, between `s` and `t`. -/
structure SamePosts (s t : State) : Prop where
  posts : t.posts = s.posts
  posted : t.tasksPosted = s.tasksPosted
  running : t.tasksRunning = s.tasksRunning
  trace : ∃ es, t.trace = s.trace ++ es ∧ Unrelated es

namespace SamePosts

variable {s t u : State}

theorem trans (h : SamePosts s t) (h' : SamePosts t u) : SamePosts s u where
  posts := h'.posts.trans h.posts
  posted := h'.posted.trans h.posted
  running := h'.running.trans h.running
  trace := by
    obtain ⟨es, htrace, hes⟩ := h.trace
    obtain ⟨fs, htrace', hfs⟩ := h'.trace
    exact ⟨es ++ fs, by rw [htrace', htrace, List.append_assoc], hes.append hfs⟩

/-- No event happens, and asio holds the same handlers. -/
theorem of_eq (hposts : t.posts = s.posts) (hops : t.handlers = s.handlers)
    (hstack : t.stack = s.stack) (htrace : t.trace = s.trace) : SamePosts s t where
  posts := hposts
  posted := congrArg (List.filterMap Handler.posted) hops
  running := congrArg (List.filterMap Frame.task) hstack
  trace := ⟨[], by rw [htrace, List.append_nil], .nil⟩

theorem refl (s : State) : SamePosts s s := of_eq rfl rfl rfl rfl

/-- Operations are started or aborted, none of them a posted closure. -/
theorem of_handlers (hposts : t.posts = s.posts) {k : List Handler}
    (hops : t.handlers = s.handlers ++ k) (hnew : ∀ h ∈ k, h.posted = none)
    (hstack : t.stack = s.stack) {es : List Event} (htrace : t.trace = s.trace ++ es)
    (hes : Unrelated es) : SamePosts s t where
  posts := hposts
  posted := by
    rw [State.tasksPosted, hops, List.filterMap_append, List.filterMap_eq_nil_iff.mpr hnew,
      List.append_nil]
    rfl
  running := congrArg (List.filterMap Frame.task) hstack
  trace := ⟨es, htrace, hes⟩

theorem emit {es : List Event} (hes : Unrelated es) : SamePosts s (s.emit es) where
  posts := rfl
  posted := rfl
  running := rfl
  trace := ⟨es, rfl, hes⟩

/-- The stack is changed, but not the closures on it. -/
theorem withStack {fs : List Frame} (hfs : fs.filterMap Frame.task = s.tasksRunning) :
    SamePosts s { s with stack := fs } where
  posts := rfl
  posted := rfl
  running := hfs
  trace := ⟨[], (List.append_nil _).symm, .nil⟩

theorem push {fs : List Frame} (hfs : fs.filterMap Frame.task = []) :
    SamePosts s (s.push fs) := by
  refine withStack ?_
  rw [List.filterMap_append, hfs, List.nil_append]
  rfl

/-- The frame on top of the stack goes on. -/
theorem pop {f : Frame} {fs : List Frame} (hstack : s.stack = f :: fs) (hf : f.task = none) :
    SamePosts s { s with stack := fs } := by
  refine withStack ?_
  rw [State.tasksRunning, hstack, List.filterMap_cons_none hf]

/-! ### The functions of the runtime -/

theorem timerStart (u : TimerId) (time : Milliseconds) (task : Task) :
    SamePosts s (TimerService.start s u time task) :=
  of_handlers rfl (k := [.oneShot u task]) (by simp [State.handlers, Function.comp_def])
    (by simp [Handler.posted]) rfl (TimerService.start_trace s u time task) (.stops _ _ _)

theorem timerStartPeriodic (u : TimerId) (time : Milliseconds) (task : Task) :
    SamePosts s (TimerService.startPeriodic s u time task) :=
  of_handlers rfl (k := [.periodic u time task]) (by simp [State.handlers, Function.comp_def])
    (by simp [Handler.posted]) rfl (TimerService.startPeriodic_trace s u time task)
    (.stops _ _ _)

theorem timerStop (u : TimerId) : SamePosts s (TimerService.stop s u) where
  posts := rfl
  posted := by
    unfold State.tasksPosted State.handlers
    simp [Function.comp_def]
  running := by
    rw [State.tasksRunning, TimerService.stop_stack, List.filterMap_append]
    cases s.server.lock (s.timers u).requestProcessorQueue <;> rfl
  trace := ⟨_, TimerService.stop_trace s u,
    .launches (.one (e := .timerStopped u) nofun nofun) _ _ _⟩

theorem destroy (p : Object → Bool) (closeErrors : List String) :
    SamePosts s (s.destroy p closeErrors) :=
  of_eq rfl (by simp [State.handlers, Function.comp_def]) rfl (State.destroy_trace s p closeErrors)

theorem onSocket {c : ConnId} (h : OnSocket c s t) : SamePosts s t := by
  obtain ⟨new, hnew, htransfers⟩ := h.handlers
  refine of_handlers ?_ hnew (fun k hk => ?_) h.stack ?_ .nil
  · rw [State.posts, h.server, h.dispatcherQueue, h.contexts, h.postCount]
    rfl
  · have hk := htransfers k hk
    cases k <;> first | rfl | cases hk
  · rw [h.trace, List.append_nil]

theorem onResponseReceived (c : ConnId) (response : Option ResponseData) :
    SamePosts s (ClientService.onResponseReceived s c response) := by
  have hstop : SamePosts s (TimerService.stop s (s.conns c).timer) := timerStop _
  have hreport : SamePosts (TimerService.stop s (s.conns c).timer)
      (ClientService.reportErrorMsg (TimerService.stop s (s.conns c).timer) (s.conns c).service
        (response.elim "" (·.errorMsg))) := of_eq rfl rfl rfl rfl
  have hcall := (hstop.trans hreport).trans (emit (.one
    (e := .responseHandler c (response.map (s.conns c).overload.responseOf)) nofun nofun))
  exact hcall.trans (push rfl)

theorem afterResponse (c : ConnId) : SamePosts s (ClientService.afterResponse s c) where
  posts := rfl
  posted := rfl
  running := by
    rw [State.tasksRunning, ClientService.afterResponse_stack, List.filterMap_append]
    cases s.server.lock (ClientRef.queue s.clientQueue (s.conns c).service) <;> rfl
  trace := ⟨_, ClientService.afterResponse_trace s c,
    .launches (.one (e := .returned (.client c)) nofun nofun) _ _ _⟩

theorem prepareRequest (k : ClientRef) (maker : Option RequestId) (overload : Overload)
    (timeout : Milliseconds) :
    SamePosts s (ClientService.prepareRequest s k maker overload timeout) := by
  refine of_handlers rfl (k := [.oneShot s.timerCount (.cancelRequest s.connCount)]) ?_
    (by simp [Handler.posted]) rfl (ClientService.prepareRequest_trace s k maker overload timeout)
    (.stops _ _ _)
  simp [State.handlers, Function.comp_def]

theorem makeRequest (k : ClientRef) (maker : Option RequestId) (overload : Overload)
    (hasEndpoint : Bool) (timeout : Milliseconds) :
    SamePosts s (ClientService.makeRequest s k maker overload hasEndpoint timeout) := by
  have hprepare : SamePosts s (ClientService.prepareRequest s k maker overload timeout) :=
    prepareRequest k maker overload timeout
  unfold ClientService.makeRequest
  cases hasEndpoint with
  | false => exact hprepare
  | true =>
    refine hprepare.trans (of_handlers rfl (k := [.connect s.connCount]) ?_
      (by simp [Handler.posted]) rfl ?_ .nil)
    · simp [State.handlers]
    · rw [List.append_nil]
      exact ClientConnection.makeRequest_trace _ _

theorem makeTimer (maker : Option RequestId) : SamePosts s (Timer.make s maker) := by
  cases maker with
  | none => exact of_eq rfl rfl rfl rfl
  | some r =>
    by_cases hr : s.server.responseContext = some r
    · rw [Timer.make_current hr]
      exact of_eq rfl rfl rfl rfl
    · rw [Timer.make_expired hr]
      exact refl s

theorem send (r : RequestId) (answer : Answer) : SamePosts s (s.send r answer) := by
  obtain ⟨isValid, calls, answers, hsend⟩ := Responder.send_eq s.server r answer
  refine of_eq ?_ rfl rfl rfl
  rw [State.posts, State.send, hsend]
  rfl

/-- The handler of an operation that is not a posted closure is called. -/
theorem delivers {i : Nat} {h : Handler} {error : Option OpError} (hd : Delivers s i h error u)
    (hh : h.posted = none) : SamePosts s u := by
  obtain ⟨delay, hop⟩ := hd.op
  rw [hd.rest]
  exact
    { posts := rfl
      posted := by
        rw [State.tasksPosted_eq, State.tasksPosted_eq]
        exact filterMap_eraseIdx hop hh
      running := rfl
      trace := ⟨[], (List.append_nil _).symm, .nil⟩ }

end SamePosts

/-! ## The service behind the runtime -/

/-- The posted tasks of the runtime are those of the service: their closures, their contexts, and
the queue that is set. A reference to a queue that does not exist any more counts as none. -/
structure Agrees (s : State) (d : AsioDispatcher) : Prop where
  queues : d.queues = s.server.requests
  alive : ∀ q, d.alive q = s.server.queueAlive q
  context : ∀ q, s.server.responseContext = some q → q < s.server.requests
  current : d.lock d.requestProcessorQueue = s.server.lock s.dispatcherQueue
  currentOf : ∀ q, d.requestProcessorQueue = some q → s.dispatcherQueue = some q
  currentMade : ∀ q, s.dispatcherQueue = some q → q < s.server.requests
  tasks : d.tasks = s.postCount
  observer : ∀ p, d.lock (d.actions p).queueObserver = s.server.lock (s.contexts p).queueObserver
  observerOf : ∀ p q, (d.actions p).queueObserver = some q → (s.contexts p).queueObserver = some q
  observerMade : ∀ p q, (s.contexts p).queueObserver = some q → q < s.server.requests
  posted : d.posted = s.tasksPosted
  running : d.running.Perm s.tasksRunning
  copies : ∀ p, d.copies p = (s.contexts p).copies
  held : ∀ p, d.posted.count p + d.running.count p = (s.contexts p).held.toNat
  launches : ∀ p, d.launches p = actionLaunches p s.trace

/-- They agree, and the service counts the holders of the contexts. -/
structure Dispatches (s : State) (d : AsioDispatcher) : Prop where
  agrees : Agrees s d
  sound : d.Sound

variable {s t : State} {d e : AsioDispatcher} {p : PostId}

namespace Agrees

theorem init : Agrees {} {} where
  queues := rfl
  alive _ := rfl
  context := nofun
  current := rfl
  currentOf := nofun
  currentMade := nofun
  tasks := rfl
  observer _ := rfl
  observerOf := nofun
  observerMade := nofun
  posted := rfl
  running := .refl _
  copies _ := rfl
  held _ := rfl
  launches _ := rfl

/-- The step does not concern posted tasks. -/
theorem same (h : Agrees s d) (hsame : SamePosts s t) : Agrees t d := by
  have hposts := hsame.posts
  simp only [State.posts, Prod.mk.injEq] at hposts
  obtain ⟨hcontext, hrequests, hqueue, hcontexts, hcount⟩ := hposts
  have hlive : ∀ q, t.server.queueAlive q = s.server.queueAlive q := fun q => by
    rw [Server.queueAlive, hcontext, Server.queueAlive]
  have hlock : ∀ q, t.server.lock q = s.server.lock q := fun q => by
    rw [Server.lock, Server.lock, funext hlive]
  obtain ⟨es, htrace, hes⟩ := hsame.trace
  exact
    { queues := by rw [hrequests, h.queues]
      alive := fun q => by rw [hlive, h.alive]
      context := by rw [hcontext, hrequests]; exact h.context
      current := by rw [hlock, hqueue, h.current]
      currentOf := by rw [hqueue]; exact h.currentOf
      currentMade := by rw [hqueue, hrequests]; exact h.currentMade
      tasks := by rw [hcount, h.tasks]
      observer := fun p => by rw [hlock, hcontexts, h.observer]
      observerOf := by rw [hcontexts]; exact h.observerOf
      observerMade := by rw [hcontexts, hrequests]; exact h.observerMade
      posted := by rw [hsame.posted, h.posted]
      running := by rw [hsame.running]; exact h.running
      copies := by rw [hcontexts]; exact h.copies
      held := by rw [hcontexts]; exact h.held
      launches := fun p => by rw [htrace, hes.actionLaunches_append, h.launches] }

theorem holders (h : Agrees s d) (p : PostId) :
    d.holders p = (s.contexts p).held.toNat + (s.contexts p).copies := by
  rw [AsioDispatcher.holders, h.held, h.copies]

end Agrees

/-! ### Contexts -/

/-- A copy of the context has been destroyed: where it was the last one, so is the action. -/
def State.settleContext (s : State) (p : PostId) : State :=
  if (s.contexts p).held = false ∧ (s.contexts p).copies = 0 then TaskContext.destroy s p else s

theorem TaskContext.releaseHeld_eq (s : State) (p : PostId) : TaskContext.releaseHeld s p =
    (TaskContext.setContext s p { s.contexts p with held := false }).settleContext p := by
  unfold TaskContext.releaseHeld State.settleContext
  simp

theorem TaskContext.release_eq (h : 0 < (s.contexts p).copies) : TaskContext.release s p =
    (TaskContext.setContext s p { s.contexts p with
      copies := (s.contexts p).copies - 1 }).settleContext p := by
  unfold TaskContext.release State.settleContext
  have hlast : ((s.contexts p).copies ≤ 1 ∧ (s.contexts p).held = false) ↔
      (s.contexts p).held = false ∧ (s.contexts p).copies - 1 = 0 := by
    rw [and_comm]
    exact and_congr_right fun _ => by omega
  simp only [hlast, TaskContext.setContext_contexts, Function.update_self]

theorem AsioDispatcher.release_rest (d : AsioDispatcher) (p : PostId) :
    (d.release p).queues = d.queues ∧ (d.release p).alive = d.alive ∧
      (d.release p).requestProcessorQueue = d.requestProcessorQueue ∧
      (d.release p).posted = d.posted ∧ (d.release p).running = d.running ∧
      (d.release p).copies = d.copies := by
  unfold AsioDispatcher.release
  dsimp only
  split <;> exact ⟨rfl, rfl, rfl, rfl, rfl, rfl⟩

/-- **The destructor of a context** does in the runtime what it does in the service. -/
theorem Agrees.release (h : Agrees s d) (p : PostId)
    (huse : (d.actions p).useCount = d.holders p + 1) :
    Agrees (s.settleContext p) (d.release p) := by
  obtain ⟨hqueues, halive, hcurrent, hposted, hrunning, hcopies⟩ := d.release_rest p
  have hlock : ∀ q, (d.release p).lock q = d.lock q := fun q => by
    rw [AsioDispatcher.lock, halive, AsioDispatcher.lock]
  have hobserver : ∀ r, ((d.release p).actions r).queueObserver = (d.actions r).queueObserver :=
    fun r => by rw [AsioDispatcher.release_actions]
  have hlaunches : ∀ r, (d.release p).launches r = actionLaunches r s.trace ++
      if r = p ∧ d.holders p = 0 then (s.server.lock (s.contexts p).queueObserver).toList
      else [] := by
    intro r
    have hle : (d.holders p + 1 ≤ 1) = (d.holders p = 0) := propext ⟨by omega, by omega⟩
    rw [AsioDispatcher.release_launches, h.launches, h.observer, huse]
    simp only [hle]
  have hrest : ∀ t : State, t.posts = s.posts → t.tasksPosted = s.tasksPosted →
      t.tasksRunning = s.tasksRunning →
      (∀ r, (d.release p).launches r = actionLaunches r t.trace) → Agrees t (d.release p) := by
    intro t hposts htposted htrunning htrace
    have hsame := h.same (t := { t with trace := s.trace })
      { posts := hposts
        posted := htposted
        running := htrunning
        trace := ⟨[], (List.append_nil _).symm, .nil⟩ }
    exact
      { queues := hqueues.trans hsame.queues
        alive := fun q => by rw [halive]; exact hsame.alive q
        context := hsame.context
        current := by rw [hlock, hcurrent]; exact hsame.current
        currentOf := by rw [hcurrent]; exact hsame.currentOf
        currentMade := hsame.currentMade
        tasks := (AsioDispatcher.release_tasks d p).trans hsame.tasks
        observer := fun r => by rw [hlock, hobserver]; exact hsame.observer r
        observerOf := fun r => by rw [hobserver]; exact hsame.observerOf r
        observerMade := hsame.observerMade
        posted := hposted.trans hsame.posted
        running := by rw [hrunning]; exact hsame.running
        copies := fun r => by rw [hcopies]; exact hsame.copies r
        held := fun r => by rw [hposted, hrunning]; exact hsame.held r
        launches := htrace }
  have hzero : d.holders p = 0 ↔ (s.contexts p).held = false ∧ (s.contexts p).copies = 0 := by
    rw [h.holders, Nat.add_eq_zero_iff, Bool.toNat_eq_zero]
  by_cases hlast : (s.contexts p).held = false ∧ (s.contexts p).copies = 0
  · rw [State.settleContext, if_pos hlast]
    refine hrest _ rfl rfl ?_ fun r => ?_
    · rw [State.tasksRunning, TaskContext.destroy_stack]
      cases s.server.lock (s.contexts p).queueObserver <;> rfl
    · rw [hlaunches, TaskContext.destroy_trace, actionLaunches_destroy]
      congr 1
      simp [hzero, hlast, eq_comm]
  · rw [State.settleContext, if_neg hlast]
    refine hrest s rfl rfl rfl fun r => ?_
    rw [hlaunches, if_neg fun hr => hlast (hzero.mp hr.2), List.append_nil]

/-- The holders of one context change. -/
theorem Agrees.recount (h : Agrees s d) {x : PostAction}
    (hobserver : x.queueObserver = (s.contexts p).queueObserver)
    (hposts : t.posts = (TaskContext.setContext s p x).posts) (htrace : t.trace = s.trace)
    (hrest : (e.queues, e.alive, e.requestProcessorQueue, e.tasks, e.calls) =
      (d.queues, d.alive, d.requestProcessorQueue, d.tasks, d.calls))
    (hactions : ∀ r, (e.actions r).queueObserver = (d.actions r).queueObserver)
    (hposted : e.posted = t.tasksPosted) (hrunning : e.running.Perm t.tasksRunning)
    (hcopies : ∀ r, e.copies r = if r = p then x.copies else d.copies r)
    (hheld : ∀ r, e.posted.count r + e.running.count r =
      if r = p then x.held.toNat else d.posted.count r + d.running.count r) :
    Agrees t e := by
  simp only [State.posts, TaskContext.setContext, Prod.mk.injEq] at hposts hrest
  obtain ⟨hcontext, hrequests, hqueue, hcontexts, hcount⟩ := hposts
  obtain ⟨hqueues, halive, hcurrent, htasks, hcalls⟩ := hrest
  have hlive : ∀ q, t.server.queueAlive q = s.server.queueAlive q := fun q => by
    rw [Server.queueAlive, hcontext, Server.queueAlive]
  have hlock : ∀ q, t.server.lock q = s.server.lock q := fun q => by
    rw [Server.lock, Server.lock, funext hlive]
  have hlock' : ∀ q, e.lock q = d.lock q := fun q => by
    rw [AsioDispatcher.lock, halive, AsioDispatcher.lock]
  have hsame : ∀ r, (t.contexts r).queueObserver = (s.contexts r).queueObserver := fun r => by
    rw [hcontexts]
    by_cases hr : r = p
    · subst hr
      rw [Function.update_self, hobserver]
    · rw [Function.update_of_ne hr]
  exact
    { queues := by rw [hqueues, hrequests, h.queues]
      alive := fun q => by rw [halive, hlive, h.alive]
      context := by rw [hcontext, hrequests]; exact h.context
      current := by rw [hlock', hcurrent, hlock, hqueue, h.current]
      currentOf := by rw [hcurrent, hqueue]; exact h.currentOf
      currentMade := by rw [hqueue, hrequests]; exact h.currentMade
      tasks := by rw [htasks, hcount, h.tasks]
      observer := fun r => by rw [hlock', hactions, hlock, hsame, h.observer]
      observerOf := fun r => by rw [hactions, hsame]; exact h.observerOf r
      observerMade := fun r => by rw [hsame, hrequests]; exact h.observerMade r
      posted := hposted
      running := hrunning
      copies := fun r => by
        rw [hcopies, hcontexts]
        by_cases hr : r = p
        · rw [if_pos hr, hr, Function.update_self]
        · rw [if_neg hr, Function.update_of_ne hr, h.copies]
      held := fun r => by
        rw [hheld, hcontexts]
        by_cases hr : r = p
        · rw [if_pos hr, hr, Function.update_self]
        · rw [if_neg hr, Function.update_of_ne hr, h.held]
      launches := fun r => by rw [htrace, ← h.launches, AsioDispatcher.launches, hcalls]; rfl }

namespace Dispatches

theorem same (h : Dispatches s d) (hsame : SamePosts s t) : Dispatches t d :=
  ⟨h.agrees.same hsame, h.sound⟩

/-- A holder of a context is gone, and the context is destroyed. -/
theorem drop (h : Dispatches s d) (hagrees : Agrees t e)
    (hholders : ∀ r, d.holders r = e.holders r + if r = p then 1 else 0)
    (hrest : (e.actions, e.tasks, e.calls, e.alive) = (d.actions, d.tasks, d.calls, d.alive)) :
    Dispatches (t.settleContext p) (e.release p) := by
  refine ⟨hagrees.release p ?_, (h.sound.drop hholders hrest).1⟩
  have hactions : e.actions = d.actions := (Prod.mk.inj hrest).1
  rw [hactions, h.sound.useCount, hholders p, if_pos rfl]

/-- The closure of a task is destroyed, one that waited or one that was run. -/
theorem dropHeld (h : Dispatches s d) {posted running : List PostId} (hposts : t.posts = s.posts)
    (htrace : t.trace = s.trace) (hposted : posted = t.tasksPosted)
    (hrunning : running.Perm t.tasksRunning)
    (hcount : ∀ r, d.posted.count r + d.running.count r =
      posted.count r + running.count r + if r = p then 1 else 0) :
    Dispatches (TaskContext.releaseHeld t p)
      (AsioDispatcher.release { d with posted := posted, running := running } p) := by
  have hsame := hposts
  simp only [State.posts, Prod.mk.injEq] at hsame
  obtain ⟨hcontext, hrequests, hqueue, hcontexts, htasks⟩ := hsame
  rw [TaskContext.releaseHeld_eq]
  refine h.drop (h.agrees.recount (x := { s.contexts p with held := false }) rfl ?_ htrace rfl
    (fun _ => rfl) hposted hrunning (fun r => ?_) fun r => ?_) (fun r => ?_) rfl
  · simp only [State.posts, TaskContext.setContext, hcontext, hrequests, hqueue, hcontexts, htasks]
  · by_cases hr : r = p
    · rw [if_pos hr, hr, h.agrees.copies]
    · rw [if_neg hr]
  · have hheld := h.agrees.held r
    have hle := Bool.toNat_le (s.contexts r).held
    have hr := hcount r
    by_cases heq : r = p
    · rw [if_pos heq] at hr ⊢
      simp only [Bool.toNat_false]
      omega
    · rw [if_neg heq] at hr ⊢
      dsimp only
      omega
  · have hr := hcount r
    simp only [AsioDispatcher.holders]
    omega

/-- A frame that runs a task is taken off the stack; its closure is destroyed. -/
theorem finish (h : Dispatches s d) {fs : List Frame} (hstack : s.stack = .taskHandler p :: fs) :
    ∃ j e, AsioDispatcher.machine.step d (.finish j) = some e ∧
      Dispatches (TaskContext.releaseHeld { s with stack := fs } p) e := by
  have hperm : d.running.Perm (p :: fs.filterMap Frame.task) := by
    have hrunning := h.agrees.running
    rwa [State.tasksRunning, hstack] at hrunning
  have hmem : p ∈ d.running := hperm.mem_iff.mpr List.mem_cons_self
  obtain ⟨j, hj, hp⟩ := List.mem_iff_getElem.mp hmem
  have hget : d.running[j]? = some p := by rw [List.getElem?_eq_getElem hj, hp]
  have hrest : (d.running.eraseIdx j).Perm (fs.filterMap Frame.task) := by
    have herase := List.getElem_cons_eraseIdx_perm hj
    rw [hp] at herase
    exact (herase.trans hperm).cons_inv
  refine ⟨j, AsioDispatcher.release { d with running := d.running.eraseIdx j } p,
    by simp [AsioDispatcher.machine, AsioDispatcher.step, hget], ?_⟩
  refine h.dropHeld rfl rfl h.agrees.posted hrest fun r => ?_
  have hr := AsioDispatcher.count_eraseIdx hget r
  omega

/-- A posted closure is taken out of the operations. -/
theorem exists_posted (h : Dispatches s d) {i : Nat} {op : AsyncOp} (hop : s.ops[i]? = some op)
    (hp : op.handler = .postedTask p) : ∃ j, d.posted[j]? = some p ∧
      d.posted.eraseIdx j = { s with ops := s.ops.eraseIdx i }.tasksPosted := by
  obtain ⟨j, hj, herase⟩ := exists_filterMap_eraseIdx (f := fun op => op.handler.posted) (y := p)
    hop (by simp [hp, Handler.posted])
  rw [← State.tasksPosted_eq, ← h.agrees.posted] at hj herase
  exact ⟨j, hj, by rw [← herase, State.tasksPosted_eq]⟩

/-- A posted closure is destroyed without being run. -/
theorem discard (h : Dispatches s d) {i : Nat} {op : AsyncOp} (hop : s.ops[i]? = some op)
    (hp : op.handler = .postedTask p) :
    ∃ j e, AsioDispatcher.machine.step d (.discard j) = some e ∧
      Dispatches (TaskContext.releaseHeld { s with ops := s.ops.eraseIdx i } p) e := by
  obtain ⟨j, hj, herase⟩ := h.exists_posted hop hp
  refine ⟨j, AsioDispatcher.release { d with posted := d.posted.eraseIdx j } p,
    by simp [AsioDispatcher.machine, AsioDispatcher.step, hj], ?_⟩
  refine h.dropHeld rfl rfl herase h.agrees.running fun r => ?_
  have hr := AsioDispatcher.count_eraseIdx hj r
  omega

/-- A user's copy of a context is destroyed. -/
theorem destroyCopy (h : Dispatches s d) (hp : 0 < (s.contexts p).copies) :
    ∃ e, AsioDispatcher.machine.step d (.destroyCopy p) = some e ∧
      Dispatches (TaskContext.release s p) e := by
  have hcopies := h.agrees.copies p
  refine ⟨AsioDispatcher.release
    { d with copies := Function.update d.copies p (d.copies p - 1) } p,
    by simp [AsioDispatcher.machine, AsioDispatcher.step, hcopies, hp], ?_⟩
  rw [TaskContext.release_eq hp]
  refine h.drop (h.agrees.recount
    (x := { s.contexts p with copies := (s.contexts p).copies - 1 }) rfl rfl rfl rfl
    (fun _ => rfl) h.agrees.posted h.agrees.running (fun r => ?_) fun r => ?_) (fun r => ?_) rfl
  · by_cases hr : r = p
    · subst hr
      simp [hcopies]
    · simp [hr]
  · by_cases hr : r = p
    · rw [if_pos hr, hr, h.agrees.held]
    · rw [if_neg hr]
  · by_cases hr : r = p
    · subst hr
      simp only [AsioDispatcher.holders, Function.update_self, if_true]
      omega
    · simp [AsioDispatcher.holders, hr]

/-- User code copies a context it was given. -/
theorem copy (h : Dispatches s d) (hp : p ∈ s.tasksRunning ∨ 0 < (s.contexts p).copies) :
    ∃ e, AsioDispatcher.machine.step d (.copy p) = some e ∧
      Dispatches (TaskContext.copy s p) e := by
  have hcopies := h.agrees.copies p
  have hgiven : p ∈ d.running ∨ 0 < d.copies p := by
    rw [h.agrees.running.mem_iff, hcopies]
    exact hp
  have hstep : AsioDispatcher.machine.step d (.copy p) = some
      ({ d with copies := Function.update d.copies p (d.copies p + 1) }.setUseCount p
        ((d.actions p).useCount + 1)) := if_pos hgiven
  refine ⟨_, hstep, ?_, (h.sound.step hstep).1⟩
  refine h.agrees.recount (x := { s.contexts p with copies := (s.contexts p).copies + 1 })
    rfl rfl rfl rfl (fun r => ?_) h.agrees.posted h.agrees.running (fun r => ?_) fun r => ?_
  · rw [AsioDispatcher.setUseCount_actions]
  · by_cases hr : r = p
    · subst hr
      simp [AsioDispatcher.setUseCount, hcopies]
    · simp [AsioDispatcher.setUseCount, hr]
  · by_cases hr : r = p
    · rw [if_pos hr, hr]
      exact h.agrees.held p
    · rw [if_neg hr]
      rfl

/-- A posted closure is run. -/
theorem run (h : Dispatches s d) {i : Nat} {error : Option OpError} {u : State}
    (hd : Delivers s i (.postedTask p) error u) :
    ∃ j e, AsioDispatcher.machine.step d (.run j) = some e ∧
      Dispatches (u.push [.user (.task p), .taskHandler p]) e := by
  obtain ⟨delay, hop⟩ := hd.op
  obtain ⟨j, hj, herase⟩ := h.exists_posted hop rfl
  have hstep : AsioDispatcher.machine.step d (.run j) = some
      { d with posted := d.posted.eraseIdx j, running := d.running ++ [p] } := by
    simp [AsioDispatcher.machine, AsioDispatcher.step, hj]
  refine ⟨j, _, hstep, ?_, (h.sound.step hstep).1⟩
  have hcount := AsioDispatcher.count_eraseIdx hj
  have hsame : TaskContext.setContext s p (s.contexts p) = s := by
    simp [TaskContext.setContext]
  refine h.agrees.recount (p := p) (x := s.contexts p) rfl ?_ ?_ rfl (fun _ => rfl) ?_ ?_
    (fun r => ?_) fun r => ?_
  · rw [hsame, hd.rest]
    rfl
  · rw [State.push_trace, hd.trace_eq]
  · rw [herase, hd.rest]
    rfl
  · show (d.running ++ [p]).Perm (p :: u.tasksRunning)
    have hrunning : u.tasksRunning = s.tasksRunning := by
      rw [hd.rest]
      rfl
    rw [hrunning]
    exact (List.perm_append_singleton p _).trans (h.agrees.running.cons p)
  · by_cases hr : r = p
    · rw [if_pos hr, hr, h.agrees.copies]
    · rw [if_neg hr]
  · have hheld := h.agrees.held r
    have hr := hcount r
    simp only [List.count_append, List.count_singleton, beq_iff_eq, eq_comm (a := p)]
    by_cases heq : r = p
    · subst heq
      simp only [if_true] at hr ⊢
      omega
    · rw [if_neg heq] at hr
      rw [if_neg heq, if_neg heq]
      omega

/-- A task is posted, through a service that was given the queue `x` and is given `y` after
that. -/
theorem post (h : Dispatches s d) {m : Option RequestId} {x y : Option QueueId}
    (hx : d.lock x = s.server.lock (m.bind fun _ => s.dispatcherQueue))
    (hy : d.lock y = s.server.lock s.dispatcherQueue)
    (hxof : ∀ q, x = some q → (m.bind fun _ => s.dispatcherQueue) = some q)
    (hyof : ∀ q, y = some q → s.dispatcherQueue = some q) :
    Agrees ((AsioDispatcherService.postTask s m).emit [.started m (.task s.postCount)])
      ((d.setRequestProcessorQueue x).postTask.setRequestProcessorQueue y) := by
  have hfresh : ∀ r, s.postCount = r → d.posted.count r = 0 ∧ d.running.count r = 0 ∧
      d.copies r = 0 := by
    rintro r rfl
    have hzero := h.sound.unposted s.postCount (Nat.le_of_eq h.agrees.tasks)
    unfold AsioDispatcher.holders at hzero
    omega
  have htasks := h.agrees.tasks
  exact
    { queues := h.agrees.queues
      alive := h.agrees.alive
      context := h.agrees.context
      current := hy
      currentOf := hyof
      currentMade := h.agrees.currentMade
      tasks := congrArg (· + 1) htasks
      observer := fun r => by
        show d.lock (Function.update d.actions d.tasks _ r).queueObserver =
          s.server.lock (Function.update s.contexts s.postCount _ r).queueObserver
        rw [htasks]
        by_cases hr : r = s.postCount
        · rw [hr, Function.update_self, Function.update_self]
          exact hx
        · rw [Function.update_of_ne hr, Function.update_of_ne hr]
          exact h.agrees.observer r
      observerOf := fun r q => by
        show (Function.update d.actions d.tasks _ r).queueObserver = some q →
          (Function.update s.contexts s.postCount _ r).queueObserver = some q
        rw [htasks]
        by_cases hr : r = s.postCount
        · rw [hr, Function.update_self, Function.update_self]
          exact hxof q
        · rw [Function.update_of_ne hr, Function.update_of_ne hr]
          exact h.agrees.observerOf r q
      observerMade := fun r q => by
        show (Function.update s.contexts s.postCount _ r).queueObserver = some q → _
        by_cases hr : r = s.postCount
        · rw [hr, Function.update_self]
          intro hq
          obtain ⟨_, -, hq⟩ := Option.bind_eq_some_iff.mp hq
          exact h.agrees.currentMade q hq
        · rw [Function.update_of_ne hr]
          exact h.agrees.observerMade r q
      posted := by
        show d.posted ++ [d.tasks] = (State.handlers _).filterMap Handler.posted
        rw [htasks, h.agrees.posted, State.handlers, State.emit_ops,
          AsioDispatcherService.postTask_ops, List.map_append, List.filterMap_append]
        rfl
      running := h.agrees.running
      copies := fun r => by
        show d.copies r = (Function.update s.contexts s.postCount _ r).copies
        by_cases hr : r = s.postCount
        · rw [hr, Function.update_self]
          exact (hfresh _ rfl).2.2
        · rw [Function.update_of_ne hr]
          exact h.agrees.copies r
      held := fun r => by
        show (d.posted ++ [d.tasks]).count r + d.running.count r =
          (Function.update s.contexts s.postCount _ r).held.toNat
        rw [htasks, List.count_append]
        by_cases hr : r = s.postCount
        · obtain ⟨hposted, hrunning, -⟩ := hfresh r hr.symm
          rw [hposted, hrunning, hr, Function.update_self]
          simp
        · rw [Function.update_of_ne hr, ← h.agrees.held r, List.count_singleton]
          simp [Ne.symm hr]
      launches := fun r => by
        have hstarted : Unrelated [.started m (.task s.postCount)] :=
          .one (fun _ _ _ he => by cases he) fun _ he => by cases he
        have hunrelated := (Unrelated.stops m
          (s.server.lock (m.bind fun _ => s.dispatcherQueue)) s.server.queueAlive).append hstarted
        rw [State.emit_trace, AsioDispatcherService.postTask_trace, List.append_assoc,
          hunrelated.actionLaunches_append, ← h.agrees.launches]
        exact AsioDispatcher.postTask_launches r }

/-! ### Exceptions -/

/-- An exception destroys the closures that it passes, as their tasks would by returning. -/
theorem unwind (what : Option String) (catcher : Option Nat) {fs : List Frame}
    (h : Dispatches { s with stack := fs } d) :
    ∃ k e, AsioDispatcher.machine.run d k = some e ∧
      ((State.unwind what catcher fs s).terminated = true ∨
        Dispatches (State.unwind what catcher fs s) e) := by
  induction fs generalizing s d with
  | nil =>
    refine ⟨[], d, rfl, Or.inr (h.same ?_)⟩
    exact SamePosts.emit (s := { s with stack := [] })
      (Unrelated.one (e := .escaped) nofun nofun)
  | cons f fs ih =>
    have hpop : f.task = none → Dispatches { s with stack := fs } d := fun hf =>
      h.same (SamePosts.pop (s := { s with stack := f :: fs }) rfl hf)
    cases f with
    | user code =>
      unfold State.unwind
      split
      · exact ⟨[], d, rfl, Or.inr h⟩
      · exact ih (hpop rfl)
    | tryBlock r =>
      refine ⟨[], d, rfl, Or.inr ((hpop rfl).same ?_)⟩
      obtain ⟨isValid, calls, answers, hsend⟩ := s.server.sendError_eq
      refine SamePosts.of_eq ?_ rfl rfl rfl
      unfold State.posts State.unwind
      rw [Connection.catchException_server, hsend]
      rfl
    -- an exception out of a destructor
    | postAction p => exact ⟨[], d, rfl, Or.inl rfl⟩
    | taskHandler p =>
      unfold State.unwind
      split
      next hlaunch =>
        -- the closure's queue is launched before the exception goes on
        have hrethrow : Dispatches { s with stack := .taskHandler p :: .rethrow what :: fs } d :=
          h.same (SamePosts.withStack (s := { s with stack := .taskHandler p :: fs }) rfl)
        obtain ⟨j, e, hstep, he⟩ := hrethrow.finish rfl
        exact ⟨[.finish j], e, by rw [Machine.run_cons, hstep]; rfl, Or.inr he⟩
      next hnot =>
        -- no launch comes in between, and the frames below are unwound after the closure
        obtain ⟨j, e, hstep, he⟩ := h.finish rfl
        have hstack := TaskContext.releaseHeld_withStack (s := s) hnot fs
        obtain ⟨k, e', hk, he'⟩ := ih (s := TaskContext.releaseHeld s p) (hstack ▸ he)
        exact ⟨.finish j :: k, e', (Machine.run_cons_eq_some _).mpr ⟨e, hstep, hk⟩, he'⟩
    | _ => exact ih (hpop rfl)

/-! ### The queues of the requests -/

/-- The request's queue is destroyed, where there is one. -/
theorem dropQueue (h : Dispatches s d) {v : Server} (hrequests : v.requests = s.server.requests)
    (hcontext : v.responseContext = none) :
    ∃ k e, AsioDispatcher.machine.run d k = some e ∧ Dispatches { s with server := v } e := by
  have hdead : ∀ q, v.queueAlive q = false := fun q => by
    rw [Server.queueAlive, hcontext]
    rfl
  have hlock : ∀ q, v.lock q = none := by
    intro q
    simp [Server.lock, hdead, Option.filter_eq_none_iff]
  have hagrees : ∀ e : AsioDispatcher, (∀ q, e.alive q = false) →
      { e with alive := d.alive } = d → Agrees { s with server := v } e := by
    intro e hnone he
    have hlock' : ∀ q, e.lock q = none := fun q => by
      simp [AsioDispatcher.lock, hnone, Option.filter_eq_none_iff]
    have hd := h.agrees
    rw [← he] at hd
    exact
      { queues := hd.queues.trans hrequests.symm
        alive := fun q => (hnone q).trans (hdead q).symm
        context := fun q hq => by rw [hcontext] at hq; cases hq
        current := (hlock' _).trans (hlock _).symm
        currentOf := hd.currentOf
        currentMade := by rw [hrequests]; exact hd.currentMade
        tasks := hd.tasks
        observer := fun p => (hlock' _).trans (hlock _).symm
        observerOf := hd.observerOf
        observerMade := by rw [hrequests]; exact hd.observerMade
        posted := hd.posted
        running := hd.running
        copies := hd.copies
        held := hd.held
        launches := hd.launches }
  rcases hcurrent : s.server.responseContext with _ | q
  · have hnone : ∀ q, d.alive q = false := fun q => by
      rw [h.agrees.alive, Server.queueAlive, hcurrent]
      rfl
    exact ⟨[], d, rfl, hagrees d hnone rfl, h.sound⟩
  · have halive : d.alive q = true := by rw [h.agrees.alive, Server.queueAlive_iff, hcurrent]
    have hstep : AsioDispatcher.machine.step d (.destroyQueue q) = some
        { d with alive := Function.update d.alive q false } := if_pos halive
    refine ⟨[.destroyQueue q], { d with alive := Function.update d.alive q false },
      by rw [Machine.run_cons, hstep]; rfl, hagrees _ (fun r => ?_) rfl, (h.sound.step hstep).1⟩
    by_cases hr : r = q
    · rw [hr]
      exact Function.update_self ..
    · refine (Function.update_of_ne hr ..).trans ?_
      rw [h.agrees.alive, ← Bool.not_eq_true, Server.queueAlive_iff, hcurrent]
      exact fun heq => hr (Option.some.inj heq).symm

/-- The queue of the next request is made. -/
theorem newQueue (h : Dispatches s d) (hnone : s.server.responseContext = none) {v : Server}
    (hrequests : v.requests = s.server.requests + 1)
    (hcontext : v.responseContext = some s.server.requests) :
    ∃ e, AsioDispatcher.machine.step d .makeQueue = some e ∧
      Dispatches { s with server := v } e := by
  refine ⟨_, rfl, ?_, (h.sound.step (a := .makeQueue) rfl).1⟩
  have halive : ∀ q, Function.update d.alive d.queues true q = v.queueAlive q := by
    intro q
    rw [h.agrees.queues]
    by_cases hq : q = s.server.requests
    · rw [hq, Function.update_self]
      exact (Server.queueAlive_iff.mpr hcontext).symm
    · rw [Function.update_of_ne hq, h.agrees.alive, Server.queueAlive, Server.queueAlive, hnone,
        hcontext]
      simpa using Ne.symm hq
  have hold : ∀ x : Option QueueId, (∀ q, x = some q → q < s.server.requests) →
      v.lock x = none := by
    intro x hx
    rw [Server.lock, Option.filter_eq_none_iff]
    rintro q rfl halive
    rw [Server.queueAlive_iff, hcontext] at halive
    exact Nat.lt_irrefl _ ((Option.some.inj halive) ▸ hx q rfl)
  have hsame : ∀ x, AsioDispatcher.lock { d with
      queues := d.queues + 1, alive := Function.update d.alive d.queues true } x = v.lock x := by
    intro x
    rw [AsioDispatcher.lock, Server.lock, ← funext halive]
  exact
    { queues := (congrArg (· + 1) h.agrees.queues).trans hrequests.symm
      alive := halive
      context := fun q hq => by
        rw [hcontext] at hq
        rw [hrequests, ← Option.some.inj hq]
        exact Nat.lt_succ_self _
      current := by
        rw [hsame, hold _ fun q hq => h.agrees.currentMade q (h.agrees.currentOf q hq)]
        exact (hold _ h.agrees.currentMade).symm
      currentOf := h.agrees.currentOf
      currentMade := fun q hq => by
        rw [hrequests]
        exact Nat.lt_succ_of_lt (h.agrees.currentMade q hq)
      tasks := h.agrees.tasks
      observer := fun p => by
        rw [hsame, hold _ fun q hq => h.agrees.observerMade p q (h.agrees.observerOf p q hq)]
        exact (hold _ (h.agrees.observerMade p)).symm
      observerOf := h.agrees.observerOf
      observerMade := fun p q hq => by
        rw [hrequests]
        exact Nat.lt_succ_of_lt (h.agrees.observerMade p q hq)
      posted := h.agrees.posted
      running := h.agrees.running
      copies := h.agrees.copies
      held := h.agrees.held
      launches := h.agrees.launches }

/-- The dispatcher is given the queue of the current request. -/
theorem setQueue (h : Dispatches s d) {r : RequestId} (hr : s.server.responseContext = some r) :
    ∃ e, AsioDispatcher.machine.step d (.setRequestProcessorQueue (some r)) = some e ∧
      Dispatches { s with dispatcherQueue := some r } e := by
  have halive : d.alive r = true := by rw [h.agrees.alive, Server.queueAlive_iff, hr]
  have hstep : AsioDispatcher.machine.step d (.setRequestProcessorQueue (some r)) =
      some (d.setRequestProcessorQueue (some r)) := if_pos (by simpa using halive)
  refine ⟨_, hstep, ?_, (h.sound.step hstep).1⟩
  have hlock : ∀ q, d.lock q = s.server.lock q := fun q => by
    rw [AsioDispatcher.lock, Server.lock, funext h.agrees.alive]
  have hmade : r < s.server.requests := h.agrees.context r hr
  exact { h.agrees with
    current := hlock (some r)
    currentOf := fun q hq => hq
    currentMade := fun q hq => by
      obtain rfl := Option.some.inj hq
      exact hmade
    observer := h.agrees.observer }

end Dispatches

/-! ## The runtime and the service -/

/-- From `d`, the service can get to where it agrees with the runtime, unless the program has been
terminated. -/
def Follows (d : AsioDispatcher) (s : State) : Prop :=
  ∃ k e, AsioDispatcher.machine.run d k = some e ∧ (s.terminated = true ∨ Dispatches s e)

namespace Follows

theorem of_dispatches (h : Dispatches s d) : Follows d s := ⟨[], d, rfl, Or.inr h⟩

theorem after {k : List AsioDispatcher.Label} (hk : AsioDispatcher.machine.run d k = some e)
    (h : Follows e s) : Follows d s := by
  obtain ⟨l, e', hl, he'⟩ := h
  exact ⟨k ++ l, e', by rw [Machine.run_append, hk, Option.bind_some, hl], he'⟩

theorem of_step {a : AsioDispatcher.Label} (ha : AsioDispatcher.machine.step d a = some e)
    (h : Dispatches s e) : Follows d s :=
  ⟨[a], e, by rw [Machine.run_cons, ha]; rfl, Or.inr h⟩

/-- A request is delivered. -/
theorem processRequest (h : Dispatches s d) (processor : RequestProcessor) :
    Follows d (Connection.processRequest s processor) := by
  obtain ⟨k, e, hk, he⟩ := h.dropQueue (v := { s.server with responseContext := none }) rfl rfl
  refine after hk ?_
  obtain ⟨e', hmake, he'⟩ := he.newQueue rfl (v := s.server.deliver) rfl rfl
  have hmade : AsioDispatcher.machine.run e [.makeQueue] = some e' := by
    rw [Machine.run_cons, hmake]
    rfl
  cases processor with
  | function =>
    refine after hmade (of_dispatches (he'.same ?_))
    exact
      { posts := rfl
        posted := rfl
        running := rfl
        trace := ⟨[], (List.append_nil _).symm, .nil⟩ }
  | router =>
    obtain ⟨e'', hset, he''⟩ := he'.setQueue (r := s.server.requests) rfl
    refine after hmade (of_step hset (he''.same ?_))
    exact
      { posts := rfl
        posted := rfl
        running := rfl
        trace := ⟨[.initialLaunch s.server.requests], rfl,
          Unrelated.one nofun nofun⟩ }

/-- User code posts a task, through a responder or from `IO`. -/
theorem postTask (h : Dispatches s d) (maker : Option RequestId) :
    Follows d ((AsioDispatcherService.postTask s maker).emit
      [.started maker (.task s.postCount)]) := by
  cases maker with
  | some r =>
    have hagrees := h.post (m := some r) (x := d.requestProcessorQueue)
      (y := d.requestProcessorQueue) h.agrees.current h.agrees.current h.agrees.currentOf
      h.agrees.currentOf
    exact of_step (a := .postTask) (e := d.postTask) rfl ⟨hagrees, h.sound.postTask.1⟩
  | none =>
    have hnone : d.lock none = s.server.lock none := rfl
    have hlock : d.lock (d.lock d.requestProcessorQueue) = s.server.lock s.dispatcherQueue := by
      rw [← h.agrees.current]
      simp [AsioDispatcher.lock, Option.filter_filter]
    have hagrees := h.post (m := none) hnone hlock (fun _ hq => by cases hq) fun q hq =>
      h.agrees.currentOf q (Option.filter_eq_some_iff.mp hq).1
    have hall : (d.lock d.requestProcessorQueue).all d.alive = true := by
      cases hq : d.lock d.requestProcessorQueue with
      | none => rfl
      | some q => exact (Option.filter_eq_some_iff.mp hq).2
    have hrun : AsioDispatcher.machine.run d [.setRequestProcessorQueue none, .postTask,
        .setRequestProcessorQueue (d.lock d.requestProcessorQueue)] =
        some ((d.setRequestProcessorQueue none).postTask.setRequestProcessorQueue
          (d.lock d.requestProcessorQueue)) := by
      exact (Machine.run_cons_eq_some _).mpr ⟨_, rfl, (Machine.run_cons_eq_some _).mpr
        ⟨_, rfl, (Machine.run_cons_eq_some _).mpr ⟨_, if_pos hall, rfl⟩⟩⟩
    have hsound : ((d.setRequestProcessorQueue none).postTask.setRequestProcessorQueue
        (d.lock d.requestProcessorQueue)).Sound := AsioDispatcher.sound_run h.sound hrun
    exact ⟨_, _, hrun, Or.inr ⟨hagrees, hsound⟩⟩

end Follows

/-- User code copies only contexts that it was given: those of the tasks that run, or copies of
them. -/
def CopiesGiven (s : State) : Label → Prop
  | .command (.copyContext p) => p ∈ s.tasksRunning ∨ 0 < (s.contexts p).copies
  | _ => True

instance (s : State) (l : Label) : Decidable (CopiesGiven s l) := by
  unfold CopiesGiven
  split <;> infer_instance

namespace Follows

/-- A call of user code. -/
theorem command (h : Dispatches s d) {c : Command} (hgiven : CopiesGiven s (.command c))
    (hc : CommandStep s c t) : Follows d t := by
  cases hc with
  | makeTimer => exact of_dispatches (h.same (.makeTimer _))
  | @start u time callback =>
    exact of_dispatches (h.same ((SamePosts.timerStart u time _).trans
      (.emit (.one nofun nofun))))
  | @startPeriodic u time callback =>
    exact of_dispatches (h.same ((SamePosts.timerStartPeriodic u time _).trans
      (.emit (.one nofun nofun))))
  | @waitFuture u f checkPeriod =>
    exact of_dispatches (h.same ((SamePosts.timerStartPeriodic u checkPeriod _).trans
      (.emit (.one nofun nofun))))
  | stop => exact of_dispatches (h.same (.timerStop _))
  | destroyTimer | destroyClient => exact of_dispatches (h.same (.destroy _ _))
  | makeClient => exact of_dispatches (h.same (.of_eq rfl rfl rfl rfl))
  | makeRequest =>
    exact of_dispatches (h.same ((SamePosts.makeRequest _ _ _ _ _).trans
      (.emit (.one nofun nofun))))
  | makeRequestThrows => exact of_dispatches (h.same (.makeRequest _ _ _ _ _))
  | disconnect => exact of_dispatches (h.same (.destroy _ _))
  | postTask => exact postTask h _
  | @copyContext p =>
    obtain ⟨e, hstep, he⟩ := h.copy (p := p) hgiven
    exact of_step hstep he
  | @releaseContext p _ hlive =>
    obtain ⟨e, hstep, he⟩ := h.destroyCopy hlive
    exact of_step hstep he
  | send => exact of_dispatches (h.same (.send _ _))

/-- **A step of the runtime is matched by the service**, where user code copies only contexts it was
given. -/
theorem step (h : Dispatches s d) {l : Label} (hgiven : CopiesGiven s l) (hstep : Step s l t) :
    Follows d t := by
  have hwait : ∀ {u task k h}, WaitsFor u task h k → h.posted = none ∧ k.task = none := by
    intro u task k h hk
    cases hk <;> exact ⟨rfl, rfl⟩
  cases hstep with
  | processRequest => exact processRequest h _
  | @destroyConnection closeErrors =>
    -- the objects of the connection first, then the queue of its request
    have hdestroy := h.same (SamePosts.destroy s.connectionMembers closeErrors)
    obtain ⟨k, e, hk, he⟩ := hdestroy.dropQueue (v := s.server.destroy) rfl rfl
    exact ⟨k, e, hk, Or.inr he⟩
  | outside => exact of_dispatches (h.same (.push rfl))
  | @ignored i moves k e u hd hh =>
    refine of_dispatches (h.same (.delivers hd ?_))
    rcases hh with hh | ⟨-, c, rfl⟩
    · cases k <;> first | rfl | cases hh
    · rfl
  | @callback i moves g u callback k v hd hk =>
    have hcall : SamePosts s (v.emit [.callback u callback]) :=
      (SamePosts.delivers hd (hwait hk).1).trans (.emit (.one nofun nofun))
    refine of_dispatches (h.same (hcall.trans (.push ?_)))
    exact (List.filterMap_cons_none rfl).trans (List.filterMap_cons_none (hwait hk).2)
  | @timeout i moves g u c k v hd hk =>
    have hcall : SamePosts s (v.emit [.timeout c]) :=
      (SamePosts.delivers hd (hwait hk).1).trans (.emit (.one nofun nofun))
    exact of_dispatches (h.same (hcall.trans (.push (List.filterMap_cons_none (hwait hk).2))))
  | @timedOut i moves g u c k v hd hk =>
    have hcall : SamePosts s (v.emit [.timeout c]) :=
      (SamePosts.delivers hd (hwait hk).1).trans (.emit (.one nofun nofun))
    have hpush : SamePosts s (((v.emit [.timeout c]).push [k]).endRequest c) :=
      (hcall.trans (.push (List.filterMap_cons_none (hwait hk).2))).trans (.of_eq rfl rfl rfl rfl)
    exact of_dispatches (h.same (hpush.trans (.onResponseReceived c none)))
  | @futurePending i moves g u f k v hd hk =>
    have hcall : SamePosts s (v.emit [.futureQueried f]) :=
      (SamePosts.delivers hd (hwait hk).1).trans (.emit (.one nofun nofun))
    exact of_dispatches (h.same (hcall.trans (.push (List.filterMap_cons_none (hwait hk).2))))
  | @futureReady i moves g u f k v value hd hk =>
    have hcall : SamePosts s (v.emit [.futureQueried f]) :=
      (SamePosts.delivers hd (hwait hk).1).trans (.emit (.one nofun nofun))
    have hget : SamePosts s { v.emit [.futureQueried f] with
        futures := Function.update v.futures f .consumed } := hcall.trans (.of_eq rfl rfl rfl rfl)
    have hgot : Unrelated [Event.futureGot f value] := .one nofun nofun
    refine of_dispatches (h.same ((hget.trans (.emit hgot)).trans (.push ?_)))
    exact (List.filterMap_cons_none rfl).trans
      ((List.filterMap_cons_none rfl).trans (List.filterMap_cons_none (hwait hk).2))
  | @futureConsumed i moves g u f k v hd hk =>
    -- `get` throws, and only the wait's handler is unwound
    have hthrown : Unrelated [Event.futureQueried f, .futureError f, .escaped] :=
      ⟨nofun, by simp⟩
    exact of_dispatches (h.same ((SamePosts.delivers hd (hwait hk).1).trans (.emit hthrown)))
  | notConnected hd =>
    exact of_dispatches (h.same ((SamePosts.delivers hd rfl).trans (.onResponseReceived _ none)))
  | connected hd hv =>
    exact of_dispatches (h.same (((SamePosts.delivers hd rfl).trans (.onSocket hv)).trans
      (.of_eq rfl rfl rfl rfl)))
  | refused hd hv =>
    exact of_dispatches (h.same (((SamePosts.delivers hd rfl).trans (.onSocket hv)).trans
      (.onResponseReceived _ none)))
  | @transferred i moves g c error u v hd hg _ hv =>
    have hposted : g.posted = none := by
      cases g <;> first | rfl | cases hg
    exact of_dispatches (h.same ((SamePosts.delivers hd hposted).trans (.onSocket hv)))
  | received hd hv =>
    exact of_dispatches (h.same (((SamePosts.delivers hd rfl).trans (.onSocket hv)).trans
      (.push rfl)))
  | @answered i moves c response u v hd hv =>
    have hcall : SamePosts s ((v.push [.afterReceive c]).endRequest c) :=
      ((SamePosts.delivers hd rfl).trans (.onSocket hv)).trans
        ((SamePosts.push rfl).trans (.of_eq rfl rfl rfl rfl))
    exact of_dispatches (h.same (hcall.trans (.onResponseReceived c (some response))))
  | task hd =>
    obtain ⟨j, e, hrun, he⟩ := h.run hd
    exact of_step hrun he
  | discard _ hop hp =>
    obtain ⟨j, e, hdiscard, he⟩ := h.discard hop hp
    exact of_step hdiscard he
  | release _ _ hlive =>
    obtain ⟨e, hrelease, he⟩ := h.destroyCopy hlive
    exact of_step hrelease he
  | finish hop =>
    exact of_dispatches (h.same (.of_eq rfl (State.handlers_set hop rfl) rfl rfl))
  | futureMadeReady => exact of_dispatches (h.same (.of_eq rfl rfl rfl rfl))
  | command _ hc => exact command h hgiven hc
  | @ret answer code fs hstack =>
    have hpop : SamePosts s { s with stack := fs } := .pop hstack rfl
    refine of_dispatches (h.same (hpop.trans ?_))
    unfold State.returns
    split
    · exact .send _ _
    · exact .send _ _
    · exact .refl _
  | @throw what catcher code fs hstack =>
    have hemit : SamePosts s (s.emit [.threw code what]) := .emit (.one nofun nofun)
    have hpop : SamePosts s { s.emit [.threw code what] with stack := fs } :=
      hemit.trans (.pop (f := .user code) hstack rfl)
    exact Dispatches.unwind what catcher (s := s.emit [.threw code what]) (h.same hpop)
  | @runProcessor q =>
    have hcall : SamePosts s (s.emit [.processor q]) := .emit (.one nofun nofun)
    exact of_dispatches (h.same (hcall.trans (.push rfl)))
  | @done moves f fs hstack hf =>
    have htask : f.task = none := by
      cases f <;> first | rfl | cases hf
    exact of_dispatches (h.same (.pop hstack htask))
  | @oneShotDone moves u fs hstack =>
    have hreturned : SamePosts s ({ s with stack := fs }.emit [.returned (.oneShot u)]) :=
      (SamePosts.pop hstack rfl).trans (.emit (.one nofun nofun))
    exact of_dispatches (h.same (hreturned.trans (.timerStop u)))
  | tickDone hstack =>
    exact of_dispatches (h.same ((SamePosts.pop hstack rfl).trans (.timerStartPeriodic _ _ _)))
  | futureDone hstack =>
    exact of_dispatches (h.same ((SamePosts.pop hstack rfl).trans (.timerStop _)))
  | responseDone hstack =>
    exact of_dispatches (h.same ((SamePosts.pop hstack rfl).trans (.afterResponse _)))
  | receiveDone hstack hv =>
    exact of_dispatches (h.same ((SamePosts.pop hstack rfl).trans (.onSocket hv)))
  | taskDone hstack =>
    obtain ⟨j, e, hfinish, he⟩ := h.finish hstack
    exact of_step hfinish he
  | @rethrown moves what fs hstack =>
    have hpop : SamePosts s { s with stack := fs } := .pop hstack rfl
    exact Dispatches.unwind what none (s := { s with stack := fs }) (h.same hpop)

end Follows

/-! ## What posted tasks launch -/

namespace AsioDispatcher

variable {a : Label}

/-- Queues are numbered as they are made. -/
structure Numbered (d : AsioDispatcher) : Prop where
  alive : ∀ q, d.alive q = true → q < d.queues
  current : ∀ q, d.requestProcessorQueue = some q → q < d.queues
  observer : ∀ p q, (d.actions p).queueObserver = some q → q < d.queues

theorem Numbered.of_eq (h : Numbered d) (hrest : (e.queues, e.alive, e.requestProcessorQueue) =
    (d.queues, d.alive, d.requestProcessorQueue))
    (hactions : ∀ p, (e.actions p).queueObserver = (d.actions p).queueObserver) : Numbered e := by
  simp only [Prod.mk.injEq] at hrest
  obtain ⟨hqueues, halive, hcurrent⟩ := hrest
  constructor
  · rw [halive, hqueues]
    exact h.alive
  · rw [hcurrent, hqueues]
    exact h.current
  · intro p
    rw [hactions, hqueues]
    exact h.observer p

theorem Numbered.release (h : Numbered d) (p : TaskId) : Numbered (d.release p) := by
  obtain ⟨hqueues, halive, hcurrent, -⟩ := d.release_rest p
  refine h.of_eq (by rw [hqueues, halive, hcurrent]) fun r => ?_
  rw [release_actions]

/-- A queue that exists after a move existed before, or is made by it. -/
theorem Numbered.step (h : Numbered d) (ht : machine.step d a = some e) :
    Numbered e ∧ ∀ q, e.alive q = true → d.alive q = true ∨ d.queues ≤ q := by
  have hsame : ∀ e : AsioDispatcher, e.alive = d.alive →
      ∀ q, e.alive q = true → d.alive q = true ∨ d.queues ≤ q := fun e he q hq =>
    Or.inl (he ▸ hq)
  cases Step.of_step ht with
  | makeQueue =>
    have halive : ∀ q, Function.update d.alive d.queues true q = true →
        d.alive q = true ∨ q = d.queues := by
      intro q hq
      by_cases hnew : q = d.queues
      · exact Or.inr hnew
      · rw [Function.update_of_ne hnew] at hq
        exact Or.inl hq
    refine ⟨⟨fun q hq => ?_, fun q hq => Nat.lt_succ_of_lt (h.current q hq),
      fun p q hq => Nat.lt_succ_of_lt (h.observer p q hq)⟩, fun q hq =>
        (halive q hq).imp id fun hnew => Nat.le_of_eq hnew.symm⟩
    rcases halive q hq with hq | rfl
    · exact Nat.lt_succ_of_lt (h.alive q hq)
    · exact Nat.lt_succ_self _
  | @destroyQueue r =>
    have halive : ∀ q, Function.update d.alive r false q = true → d.alive q = true := by
      intro q hq
      by_cases hr : q = r
      · rw [hr, Function.update_self] at hq
        cases hq
      · rwa [Function.update_of_ne hr] at hq
    exact ⟨⟨fun q hq => h.alive q (halive q hq), h.current, h.observer⟩,
      fun q hq => Or.inl (halive q hq)⟩
  | @setRequestProcessorQueue queue hqueue =>
    refine ⟨⟨h.alive, fun q hq => h.alive q ?_, h.observer⟩, hsame _ rfl⟩
    obtain rfl : queue = some q := hq
    exact hqueue
  | postTask =>
    refine ⟨⟨h.alive, h.current, fun p q hq => ?_⟩, hsame _ rfl⟩
    by_cases hp : p = d.tasks
    · rw [hp] at hq
      exact h.current q (by simpa [AsioDispatcher.postTask] using hq)
    · exact h.observer p q (by simpa [AsioDispatcher.postTask, hp] using hq)
  | run => exact ⟨h.of_eq rfl fun _ => rfl, hsame _ rfl⟩
  | @finish i p =>
    exact ⟨(h.of_eq (e := { d with running := d.running.eraseIdx i }) rfl fun _ => rfl).release p,
      hsame _ (release_rest _ p).2.1⟩
  | @discard i p =>
    exact ⟨(h.of_eq (e := { d with posted := d.posted.eraseIdx i }) rfl fun _ => rfl).release p,
      hsame _ (release_rest _ p).2.1⟩
  | copy => exact ⟨h.of_eq rfl fun r => by rw [setUseCount_actions], hsame _ rfl⟩
  | @destroyCopy p =>
    exact ⟨(h.of_eq (e := { d with copies := Function.update d.copies p (d.copies p - 1) }) rfl
      fun _ => rfl).release p, hsame _ (release_rest _ p).2.1⟩

/-- What the actions of the posted tasks have launched: the queue that was set when the task was
posted, at most once; and not less, where the task is over and that queue exists. -/
structure Launched (d : AsioDispatcher) : Prop where
  once : ∀ p, p < d.tasks → d.launches p = [] ∨
    ∃ q, (d.actions p).queueObserver = some q ∧ d.launches p = [q]
  ended : ∀ p q, p < d.tasks → d.holders p = 0 → d.lock (d.actions p).queueObserver = some q →
    d.launches p = [q]

/-- **One move** launches what is left to be launched. -/
theorem Launched.step (h : Launched d) (hsound : d.Sound) (hnumbered : d.Numbered)
    (ht : machine.step d a = some e) : Launched e := by
  have hmoves := (hsound.step ht).2
  have halive := (hnumbered.step ht).2
  have hnew : ∀ p, p < e.tasks → ¬ p < d.tasks → e.launches p = [] ∧ e.holders p ≠ 0 := by
    intro p hp hnot
    rcases tasks_step ht with htasks | ⟨-, rfl⟩
    · exact absurd (htasks ▸ hp) hnot
    · have heq : p = d.tasks := Nat.le_antisymm (Nat.le_of_lt_succ hp) (Nat.le_of_not_lt hnot)
      rw [postTask_launches, hsound.fresh p (Nat.le_of_not_lt hnot), postTask_holders, if_pos heq]
      exact ⟨rfl, Nat.succ_ne_zero _⟩
  constructor
  · intro p hp
    by_cases hold : p < d.tasks
    · rw [(hmoves p hold).launches, (hmoves p hold).observer]
      split
      next hend =>
        rw [hsound.launches p hold hend.1, List.nil_append]
        cases hq : d.lock (d.actions p).queueObserver with
        | none => exact Or.inl rfl
        | some q => exact Or.inr ⟨q, (Option.filter_eq_some_iff.mp hq).1, rfl⟩
      next =>
        rw [List.append_nil]
        exact h.once p hold
    · exact Or.inl (hnew p hp hold).1
  · intro p q hp hzero hlock
    by_cases hold : p < d.tasks
    · rw [(hmoves p hold).observer] at hlock
      obtain ⟨hq, hqalive⟩ := Option.filter_eq_some_iff.mp hlock
      have hbefore : d.lock (d.actions p).queueObserver = some q := by
        refine Option.filter_eq_some_iff.mpr ⟨hq, (halive q hqalive).resolve_right fun hle => ?_⟩
        exact Nat.not_lt.mpr hle (hnumbered.observer p q hq)
      rw [(hmoves p hold).launches]
      by_cases hend : d.holders p = 0
      · rw [h.ended p q hold hend hbefore, if_neg fun hne => hne.1 hend, List.append_nil]
      · rw [hsound.launches p hold hend, if_pos ⟨hend, hzero⟩, hbefore]
        rfl
    · exact absurd hzero (hnew p hp hold).2

theorem numbered_init : Numbered {} where
  alive _ h := absurd h Bool.false_ne_true
  current := nofun
  observer := nofun

theorem launched_init : Launched {} where
  once p hp := absurd hp (Nat.not_lt_zero p)
  ended p _ hp := absurd hp (Nat.not_lt_zero p)

theorem launched_of_reachable (h : machine.Reachable d) : d.Sound ∧ Launched d := by
  have hall : d.Sound ∧ Numbered d ∧ Launched d := by
    refine h.invariant (I := fun d => d.Sound ∧ Numbered d ∧ Launched d)
      ⟨sound_init, numbered_init, launched_init⟩ ?_
    rintro s a t ⟨hsound, hnumbered, h⟩ ht
    exact ⟨(hsound.step ht).1, (hnumbered.step ht).1, h.step hsound hnumbered ht⟩
  exact ⟨hall.1, hall.2.2⟩

end AsioDispatcher

/-! ## The runs of the runtime -/

/-- What the destructors of the task's contexts have launched by now. -/
structure TaskLaunches (s : State) (p : PostId) : Prop where
  /-- As long as the closure or a copy of the context exists, nothing. -/
  pending : (s.contexts p).held = true ∨ 0 < (s.contexts p).copies → actionLaunches p s.trace = []
  /-- At most once, and no other queue than the one that was set when the task was posted. -/
  once : actionLaunches p s.trace = [] ∨
    ∃ q, (s.contexts p).queueObserver = some q ∧ actionLaunches p s.trace = [q]
  /-- Not less, where that queue exists. -/
  ended : (s.contexts p).held = false → (s.contexts p).copies = 0 →
    ∀ q, s.server.lock (s.contexts p).queueObserver = some q → actionLaunches p s.trace = [q]

/-- What the service launches, the runtime launches. -/
theorem Agrees.taskLaunches (h : Agrees s d) (hsound : d.Sound) (hlaunched : d.Launched)
    (hp : p < s.postCount) : TaskLaunches s p := by
  have hpd : p < d.tasks := h.tasks ▸ hp
  have hholders := h.holders p
  constructor
  · intro hheld
    rw [← h.launches]
    refine hsound.launches p hpd ?_
    rcases hheld with hheld | hcopies
    · rw [hholders, hheld, Bool.toNat_true]
      omega
    · omega
  · rw [← h.launches]
    exact (hlaunched.once p hpd).imp id fun ⟨q, hq, hlaunches⟩ =>
      ⟨q, h.observerOf p q hq, hlaunches⟩
  · intro hheld hcopies q hq
    rw [← h.launches]
    refine hlaunched.ended p q hpd ?_ ((h.observer p).trans hq)
    rw [hholders, hheld, hcopies]
    rfl

/-- Every step of the runtime is matched, until the program is terminated. -/
theorem matches_dispatcher : Machine.Matches runtime AsioDispatcher.machine
    (fun s d => s.terminated = true ∨ Dispatches s d) (fun _ _ => True) CopiesGiven := by
  intro s a t d hs hgiven ht
  have hstep : s.step a = some t := ht
  have hrunning : Dispatches s d := hs.resolve_left fun hterminated => by
    rw [State.step_terminated hstep] at hterminated
    cases hterminated
  obtain ⟨k, e, hk, he⟩ := Follows.step hrunning hgiven (.of_step hstep)
  exact ⟨k, e, trivial, hk, he⟩

section Runs

variable {l : List Label}

theorem dispatches_run (hgiven : runtime.EachStep (fun s a _ => CopiesGiven s a) runtime.init l)
    (hl : runtime.run runtime.init l = some s) (hs : s.terminated = false) :
    ∃ d, AsioDispatcher.machine.Reachable d ∧ Dispatches s d := by
  have hinit : Dispatches runtime.init AsioDispatcher.machine.init :=
    ⟨.init, AsioDispatcher.sound_init⟩
  obtain ⟨d, hd, h⟩ := matches_dispatcher.reachable (Or.inr hinit) hgiven hl
  exact ⟨d, hd, h.resolve_left (by simp [hs])⟩

/-- **The runtime refines the dispatcher service**: whatever requests, timers, clients and
exceptions do meanwhile, what the runtime has made of its posted tasks the service can make of
them. -/
theorem refines_dispatcher
    (hgiven : runtime.EachStep (fun s a _ => CopiesGiven s a) runtime.init l)
    (hl : runtime.run runtime.init l = some s) (hs : s.terminated = false) :
    ∃ d, AsioDispatcher.machine.Reachable d ∧ Agrees s d := by
  obtain ⟨d, hd, h⟩ := dispatches_run hgiven hl hs
  exact ⟨d, hd, h.agrees⟩

/-- A processor posts a task; the task copies its context and throws, and the copy is destroyed
after that. -/
def throwingTaskRun : List Label :=
  [.processRequest .router, .runProcessor, .command (.postTask (some 0)), .ret none, .resume {},
    .resume {}, .deliver 0 {}, .command (.copyContext 0), .throw (some "late"), .release 0]

/-- The task has thrown, and its context is held by the copy. -/
theorem refines_dispatcher_throwing :
    ∃ s, runtime.run runtime.init (throwingTaskRun.take 9) = some s ∧ (s.contexts 0).copies = 1 ∧
      ∃ d, AsioDispatcher.machine.Reachable d ∧ Agrees s d :=
  ⟨_, rfl, rfl, refines_dispatcher (l := throwingTaskRun.take 9) (by decide) rfl rfl⟩

/-- **A posted task launches its queue once**, in any run of the runtime: when it has run, was
discarded or was unwound by an exception, and the last copy of its context is destroyed. -/
theorem task_launches
    (hgiven : runtime.EachStep (fun s a _ => CopiesGiven s a) runtime.init l)
    (hl : runtime.run runtime.init l = some s) (hs : s.terminated = false) {p : PostId}
    (hp : p < s.postCount) : TaskLaunches s p := by
  obtain ⟨d, hd, h⟩ := dispatches_run hgiven hl hs
  obtain ⟨hsound, hlaunched⟩ := AsioDispatcher.launched_of_reachable hd
  exact h.agrees.taskLaunches hsound hlaunched hp

/-- The copy is destroyed. -/
theorem task_launches_throwing : ∃ s, runtime.run runtime.init throwingTaskRun = some s ∧
    actionLaunches 0 s.trace = [0] ∧ TaskLaunches s 0 :=
  ⟨_, rfl, rfl, task_launches (l := throwingTaskRun) (by decide) rfl rfl (by decide)⟩

end Runs

end Asyncgi
