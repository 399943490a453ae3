import Asyncgi.Runtime.Registry

/-!
# The call stack

The frames of a call stack in the order they can have: the code of a handler at the bottom, or
the try block of a request; then user code; and over it launches of queues with the processors
they run. Only the queue of the connection's current request is ever launched.

## Main definitions

* `Frame.Sits`: what a frame can be called from
* `Stacked`: every frame of a stack sits on the frames below it

## Main results

* `Stacked.step`: every step keeps the order
* `stacked_of_reachable`
-/

namespace Asyncgi

/-- Code of a handler that the event loop has called. -/
def Frame.isHandler : Frame → Bool
  | afterOneShot _ | afterPeriodic _ _ _ | afterFuture _ | afterResponse _ | afterReceive _
  | taskHandler _ | rethrow _ => true
  | _ => false

/-- Code that is under all user code. -/
def Frame.isBase : Frame → Bool
  | tryBlock _ => true
  | f => f.isHandler

/-- The frame can be on top of the frames `fs`, while `context` is the request of
`responseContext_`. -/
def Frame.Sits (context : Option RequestId) : Frame → List Frame → Prop
  | launch q, _ => context = some q
  | user (.processor q), fs => ∃ gs, fs = launch q :: gs
  | user _, fs => ∀ g ∈ fs, g.isBase
  | tryBlock r, fs => context = some r ∧ fs = []
  | postAction _, _ => True
  | _, fs => ∀ g ∈ fs, g.isHandler

/-- Every frame sits on those below it. -/
def Stacked (context : Option RequestId) : List Frame → Prop
  | [] => True
  | f :: fs => f.Sits context fs ∧ Stacked context fs

/-- The call stack of the state is in order. -/
abbrev State.Stacked (s : State) : Prop := Asyncgi.Stacked s.server.responseContext s.stack

namespace Stacked

variable {context : Option RequestId} {f : Frame} {fs gs : List Frame} {s t : State}

@[simp] theorem nil : Stacked context [] := trivial

@[simp] theorem cons_iff :
    Stacked context (f :: fs) ↔ f.Sits context fs ∧ Stacked context fs := Iff.rfl

/-- Launching a queue that exists. -/
theorem launches {v : Server} (h : Stacked v.responseContext fs) (q : Option RequestId) :
    Stacked v.responseContext ((v.lock q).toList.map .launch ++ fs) := by
  rcases hq : v.lock q with _ | r
  · simpa using h
  · exact ⟨(Server.lock_eq_some.mp hq).2, h⟩

/-- A handler's code on the empty stack. -/
theorem handlers (h : ∀ g ∈ fs, g.isHandler) : Stacked context fs := by
  induction fs with
  | nil => trivial
  | cons f fs ih =>
    obtain ⟨hf, hfs⟩ := List.forall_mem_cons.mp h
    refine ⟨?_, ih hfs⟩
    cases f <;> first | exact hfs | cases hf

/-- User code that a handler calls. -/
theorem code {u : UserCode} (h : ∀ g ∈ fs, g.isHandler) (hu : ∀ q, u ≠ .processor q) :
    Stacked context (.user u :: fs) := by
  have hbase : ∀ g ∈ fs, g.isBase := by
    intro g hg
    have := h g hg
    cases g <;> first | rfl | cases this
  refine ⟨?_, handlers h⟩
  cases u
  case processor q => exact absurd rfl (hu q)
  all_goals exact hbase

/-! ### The functions of the runtime -/

theorem destroyContext (h : s.Stacked) (p : PostId) : (TaskContext.destroy s p).Stacked := by
  unfold State.Stacked
  rw [TaskContext.destroy_stack, TaskContext.destroy_server]
  apply launches
  generalize (s.server.lock (s.contexts p).queueObserver).toList.length = n
  induction n with
  | zero => exact h
  | succ n ih => exact ⟨trivial, ih⟩

theorem releaseHeld (h : s.Stacked) (p : PostId) : (TaskContext.releaseHeld s p).Stacked := by
  by_cases hlast : (s.contexts p).copies = 0
  · rw [TaskContext.releaseHeld_last hlast]
    exact destroyContext (s := TaskContext.setContext s p _) h p
  · rw [TaskContext.releaseHeld_shared hlast]
    exact h

theorem release (h : s.Stacked) (p : PostId) : (TaskContext.release s p).Stacked := by
  by_cases hlast : (s.contexts p).copies ≤ 1 ∧ (s.contexts p).held = false
  · rw [TaskContext.release_last hlast]
    exact destroyContext (s := TaskContext.setContext s p _) h p
  · rw [TaskContext.release_shared hlast]
    exact h

theorem unwind (what : Option String) (catcher : Option Nat)
    (h : Stacked s.server.responseContext fs) : (State.unwind what catcher fs s).Stacked := by
  induction fs generalizing s with
  | nil => trivial
  | cons f fs ih =>
    cases f
    case user code =>
      unfold State.unwind
      split
      · exact h
      · exact ih h.2
    case tryBlock r =>
      unfold State.Stacked State.unwind
      simpa using h.2
    case postAction p => trivial
    case taskHandler p =>
      unfold State.unwind
      split
      · -- the rethrown exception takes the place of the task's handler
        exact releaseHeld (s := { s with stack := .rethrow what :: fs }) h p
      · refine ih ?_
        have hserver : (TaskContext.releaseHeld s p).server = s.server := by
          unfold TaskContext.releaseHeld
          split <;> rfl
        rw [hserver]
        exact h.2
    all_goals exact ih h.2

theorem timerStop (h : s.Stacked) (u : TimerId) : (TimerService.stop s u).Stacked := by
  unfold State.Stacked
  rw [TimerService.stop_stack]
  exact launches h _

theorem onResponseReceived (hreg : Registered s) {c : ConnId} (hc : c < s.connCount)
    (h : ∀ g ∈ s.stack, g.isHandler) (response : Option ResponseData) :
    (ClientService.onResponseReceived s c response).Stacked := by
  unfold State.Stacked
  rw [ClientService.onResponseReceived_stack, (hreg.conn c hc).2]
  exact code (List.forall_mem_cons.mpr ⟨rfl, h⟩) nofun

theorem afterResponse (h : s.Stacked) (c : ConnId) :
    (ClientService.afterResponse s c).Stacked := by
  unfold State.Stacked
  rw [ClientService.afterResponse_stack]
  exact launches h _

theorem command (h : s.Stacked) {c : Command} (hc : CommandStep s c t) : t.Stacked := by
  cases hc with
  | @makeTimer maker =>
    cases maker with
    | none => exact h
    | some r =>
      by_cases hr : s.server.responseContext = some r
      · rw [Timer.make_current hr]
        exact h
      · rw [Timer.make_expired hr]
        exact h
  | stop => exact timerStop h _
  | releaseContext => exact release h _
  | send =>
    unfold State.Stacked State.send
    simpa using h
  | start | startPeriodic | waitFuture | destroyTimer | makeClient | makeRequest
  | makeRequestThrows | disconnect | destroyClient | postTask | copyContext => exact h

theorem step (hreg : Registered s) (h : s.Stacked) {l : Label} (hstep : Step s l t) :
    t.Stacked := by
  have hwait : ∀ {u task k h}, WaitsFor u task h k → k.isHandler = true := by
    intro u task k h hk
    cases hk <;> rfl
  have hbelow : ∀ {f fs}, s.stack = f :: fs → Stacked s.server.responseContext fs := by
    intro f fs hstack
    rw [State.Stacked, hstack] at h
    exact h.2
  have hpop : ∀ {f fs}, s.stack = f :: fs → ({ s with stack := fs } : State).Stacked :=
    fun hstack => hbelow hstack
  cases hstep with
  | @processRequest processor hstack =>
    unfold State.Stacked
    cases processor with
    | router => simp [Connection.processRequest, Frame.Sits, hstack]
    | function => simp [Connection.processRequest, Frame.Sits, Frame.isBase, hstack]
  | destroyConnection hstack | outside hstack =>
    unfold State.Stacked
    simp [Frame.Sits, hstack]
  | ignored hd | futureConsumed hd =>
    unfold State.Stacked
    simp [hd.stack_eq]
  | callback hd hk =>
    unfold State.Stacked
    rw [State.push_stack, State.emit_stack, hd.stack_eq]
    exact code (by simpa using hwait hk) nofun
  | timeout hd hk | futurePending hd hk =>
    unfold State.Stacked
    rw [State.push_stack, State.emit_stack, hd.stack_eq]
    exact handlers (by simpa using hwait hk)
  | @timedOut _ _ _ _ c _ _ hd hk _ hc =>
    obtain ⟨hu, hfits⟩ := hreg.delivers hd
    have hpush := (hu.emit [.timeout c]).push_one ((hk.fits hfits).1.mono (.of_eq rfl))
    refine onResponseReceived (hpush.endRequest c) (hu.inProgress _ hc) ?_ _
    simpa [hd.stack_eq] using hwait hk
  | futureReady hd hk =>
    unfold State.Stacked
    rw [State.push_stack, State.emit_stack]
    refine code ?_ nofun
    simpa [hd.stack_eq, Frame.isHandler] using hwait hk
  | notConnected hd =>
    obtain ⟨hu, hc⟩ := hreg.delivers hd
    exact onResponseReceived hu hc (by simp [hd.stack_eq]) _
  | refused hd hv =>
    obtain ⟨hu, hc⟩ := hreg.delivers hd
    exact onResponseReceived (hu.onSocket hc hv) (Nat.lt_of_lt_of_eq hc hv.connCount.symm)
      (by simp [hv.stack, hd.stack_eq]) _
  | connected hd hv | transferred hd _ _ hv =>
    unfold State.Stacked
    simp [hv.stack, hd.stack_eq]
  | received hd hv =>
    unfold State.Stacked
    rw [State.push_stack, hv.stack, hd.stack_eq]
    exact handlers (by simp [Frame.isHandler])
  | @answered _ _ c _ _ _ hd hv =>
    obtain ⟨hu, hc⟩ := hreg.delivers hd
    have hlt := Nat.lt_of_lt_of_eq hc hv.connCount.symm
    have hpush := ((hu.onSocket hc hv).push_one (f := .afterReceive c) hlt).endRequest c
    exact onResponseReceived hpush hlt (by simp [hv.stack, hd.stack_eq, Frame.isHandler]) _
  | task hd =>
    unfold State.Stacked
    rw [State.push_stack, hd.stack_eq]
    exact code (by simp [Frame.isHandler]) nofun
  | @discard i => exact releaseHeld (s := { s with ops := s.ops.eraseIdx i }) h _
  | release => exact release h _
  | finish | futureMadeReady => exact h
  | command _ hc => exact command h hc
  | ret hstack =>
    unfold State.Stacked State.returns
    split <;> simpa [State.send] using hbelow hstack
  | throw hstack => exact unwind (s := s.emit _) _ _ (hbelow hstack)
  | runProcessor hstack =>
    exact ⟨⟨_, hstack⟩, h⟩
  | done hstack => exact hbelow hstack
  | oneShotDone hstack =>
    exact timerStop (s := ({ s with stack := _ } : State).emit _) (hbelow hstack) _
  | tickDone hstack => exact hbelow hstack
  | futureDone hstack => exact timerStop (hpop hstack) _
  | responseDone hstack => exact afterResponse (hpop hstack) _
  | receiveDone hstack hv =>
    unfold State.Stacked
    rw [hv.server, hv.stack]
    exact hbelow hstack
  | taskDone hstack => exact releaseHeld (hpop hstack) _
  | rethrown hstack => exact unwind (s := { s with stack := _ }) _ none (hbelow hstack)

end Stacked

theorem stacked_of_reachable {s : State} (h : runtime.Reachable s) : s.Stacked := by
  have hboth : Registered s ∧ s.Stacked := by
    refine h.invariant (I := fun s => Registered s ∧ s.Stacked) ⟨Registered.init, Stacked.nil⟩
      fun u l t hu hstep => ?_
    have hstep := Step.of_step hstep
    exact ⟨hu.1.step hstep, Stacked.step hu.1 hu.2 hstep⟩
  exact hboth.2

end Asyncgi
