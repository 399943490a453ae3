import Asyncgi.Runtime.Stack

/-!
# Re-entering a queue

A processor that stops a timer of its request, or destroys the last copy of a task's context,
launches the queue that runs it from inside itself. No other call does: operations complete
later, from the event loop, when no processor is on the stack.

## Main definitions

* `NotReentered`: no launch of a queue runs inside another or inside a processor of the request
* `State.relaunches`: the queue that a call launches before it returns

## Main results

* `notReentered_iff`: processors do not run inside one another in a run exactly when no call
  launches a queue that is being launched
-/

namespace Asyncgi

/-- The queue that a frame launches. -/
def Frame.launched : Frame → Option RequestId
  | launch q => some q
  | _ => none

/-- The request of a route processor. -/
def Frame.processed : Frame → Option RequestId
  | user (.processor q) => some q
  | _ => none

/-- `f` is a launch inside a launch or a processor of the same request, or a processor inside
another one. -/
def Frame.Reenters (f g : Frame) : Prop :=
  ∃ q, f.launched = some q ∧ (g.launched = some q ∨ g.processed = some q) ∨
    f.processed = some q ∧ g.processed = some q

/-- No frame re-enters one that it was called from. -/
def NotReentered (stack : List Frame) : Prop := stack.Pairwise fun f g => ¬ f.Reenters g

/-- The queue that a call launches before it returns. -/
def State.relaunches (s : State) : Command → Option RequestId
  | .stop t => s.server.lock (s.timers t).requestProcessorQueue
  | .releaseContext p =>
    if (s.contexts p).copies ≤ 1 ∧ (s.contexts p).held = false then
      s.server.lock (s.contexts p).queueObserver
    else none
  | _ => none

/-- The step is no call that launches a queue which is being launched. -/
def NoRelaunch (s : State) : Label → Prop
  | .command c => ∀ q, s.relaunches c = some q → .launch q ∉ s.stack
  | _ => True

namespace NotReentered

variable {context : Option RequestId} {s t : State} {fs : List Frame} {q : RequestId}

@[simp] theorem nil : NotReentered [] := List.Pairwise.nil

/-- Frames that are neither launches nor processors do not matter. -/
theorem cons_other {f : Frame} (hl : f.launched = none) (hp : f.processed = none) :
    NotReentered (f :: fs) ↔ NotReentered fs := by
  unfold NotReentered
  rw [List.pairwise_cons]
  refine and_iff_right fun g _ => ?_
  rintro ⟨r, ⟨h, -⟩ | ⟨h, -⟩⟩
  · simp [hl] at h
  · simp [hp] at h

theorem tail {f : Frame} (h : NotReentered (f :: fs)) : NotReentered fs :=
  (List.pairwise_cons.mp h).2

theorem of_base (h : ∀ g ∈ fs, g.isBase) : NotReentered fs := by
  induction fs with
  | nil => exact nil
  | cons f fs ih =>
    obtain ⟨hf, hfs⟩ := List.forall_mem_cons.mp h
    refine (cons_other ?_ ?_).mpr (ih hfs)
    all_goals cases f <;> first | rfl | cases hf

/-- A processor runs on the launch that has called it. -/
theorem launch_mem (h : Stacked context fs) (hq : .user (.processor q) ∈ fs) :
    .launch q ∈ fs := by
  induction fs with
  | nil => cases hq
  | cons f fs ih =>
    rcases List.mem_cons.mp hq with rfl | hq
    · obtain ⟨gs, rfl⟩ := h.1
      simp
    · exact List.mem_cons_of_mem f (ih h.2 hq)

theorem launch_iff (h : Stacked context fs) :
    NotReentered (.launch q :: fs) ↔ NotReentered fs ∧ .launch q ∉ fs := by
  unfold NotReentered
  rw [List.pairwise_cons, and_comm]
  refine and_congr_right fun _ => ?_
  constructor
  · intro hno hmem
    exact hno _ hmem ⟨q, Or.inl ⟨rfl, Or.inl rfl⟩⟩
  · rintro hno g hg ⟨r, ⟨hr, hlaunch | hprocessor⟩ | ⟨hr, -⟩⟩
    · obtain rfl : q = r := Option.some.inj hr
      cases g <;> cases hlaunch
      exact hno hg
    · obtain rfl : q = r := Option.some.inj hr
      rcases g with ⟨_ | _⟩ | _ <;> cases hprocessor
      exact hno (launch_mem h hg)
    · cases hr

theorem processor (h : NotReentered (.launch q :: fs)) :
    NotReentered (.user (.processor q) :: .launch q :: fs) := by
  refine List.pairwise_cons.mpr ⟨fun g hg => ?_, h⟩
  rintro ⟨r, ⟨hr, -⟩ | ⟨hr, hg'⟩⟩
  · cases hr
  · obtain rfl : q = r := Option.some.inj hr
    rcases List.mem_cons.mp hg with rfl | hg
    · cases hg'
    · exact (List.pairwise_cons.mp h).1 g hg ⟨q, Or.inl ⟨rfl, Or.inr hg'⟩⟩

/-- Launching the queue behind a reference. -/
theorem launches_iff {v : Server} {r : Option RequestId} (h : Stacked v.responseContext fs) :
    NotReentered ((v.lock r).toList.map .launch ++ fs) ↔
      NotReentered fs ∧ ∀ q, v.lock r = some q → .launch q ∉ fs := by
  cases hr : v.lock r with
  | none => simp
  | some q => simpa using launch_iff h

/-- Handlers are not inside a launch. -/
theorem launches_handlers {v : Server} {r : Option RequestId} (h : ∀ g ∈ fs, g.isHandler) :
    NotReentered ((v.lock r).toList.map .launch ++ fs) := by
  refine (launches_iff (Stacked.handlers h)).mpr ⟨of_base fun g hg => ?_, fun q _ hq => ?_⟩
  · have := h g hg
    cases g <;> first | rfl | cases this
  · cases h _ hq

theorem destroyContext_iff (h : s.Stacked) (p : PostId) :
    NotReentered (TaskContext.destroy s p).stack ↔ NotReentered s.stack ∧
      ∀ q, s.server.lock (s.contexts p).queueObserver = some q → .launch q ∉ s.stack := by
  rw [TaskContext.destroy_stack]
  cases hr : s.server.lock (s.contexts p).queueObserver with
  | none => simp
  | some q =>
    have hpost : Stacked s.server.responseContext (.postAction p :: s.stack) := ⟨trivial, h⟩
    simpa [cons_other (f := .postAction p) rfl rfl] using launch_iff (q := q) hpost

theorem releaseHeld (h : ∀ g ∈ s.stack, g.isHandler) (p : PostId) :
    NotReentered (TaskContext.releaseHeld s p).stack := by
  have hbase : NotReentered s.stack := by
    simpa using launches_handlers (v := s.server) (r := none) h
  by_cases hlast : (s.contexts p).copies = 0
  · rw [TaskContext.releaseHeld_last hlast]
    refine (destroyContext_iff (s := TaskContext.setContext s p _) (Stacked.handlers h) p).mpr
      ⟨hbase, fun q _ hq => ?_⟩
    cases h _ hq
  · rw [TaskContext.releaseHeld_shared hlast]
    exact hbase

theorem release_iff (h : s.Stacked) {p : PostId} :
    NotReentered (TaskContext.release s p).stack ↔ NotReentered s.stack ∧
      ∀ q, s.relaunches (.releaseContext p) = some q → .launch q ∉ s.stack := by
  by_cases hlast : (s.contexts p).copies ≤ 1 ∧ (s.contexts p).held = false
  · have hq : s.relaunches (.releaseContext p) = s.server.lock (s.contexts p).queueObserver :=
      if_pos hlast
    rw [TaskContext.release_last hlast, hq]
    simpa using destroyContext_iff (s := TaskContext.setContext s p
      { s.contexts p with copies := (s.contexts p).copies - 1 }) h p
  · have hq : s.relaunches (.releaseContext p) = none := if_neg hlast
    rw [TaskContext.release_shared hlast, hq]
    simp

theorem unwind (what : Option String) (catcher : Option Nat)
    (h : Stacked s.server.responseContext fs) (hn : NotReentered fs) :
    NotReentered (State.unwind what catcher fs s).stack := by
  induction fs generalizing s with
  | nil => exact nil
  | cons f fs ih =>
    cases f
    case user code =>
      unfold State.unwind
      split
      · exact hn
      · exact ih h.2 hn.tail
    case tryBlock r => exact hn.tail
    case postAction p => exact nil
    case taskHandler p =>
      unfold State.unwind
      split
      · refine releaseHeld (s := { s with stack := .rethrow what :: fs }) ?_ p
        exact List.forall_mem_cons.mpr ⟨rfl, h.1⟩
      · refine ih ?_ hn.tail
        have hserver : (TaskContext.releaseHeld s p).server = s.server := by
          unfold TaskContext.releaseHeld
          split <;> rfl
        rw [hserver]
        exact h.2
    all_goals exact ih h.2 hn.tail

/-- A call of user code. -/
theorem command_iff (h : s.Stacked) {c : Command} (hc : CommandStep s c t) :
    NotReentered t.stack ↔
      NotReentered s.stack ∧ ∀ q, s.relaunches c = some q → .launch q ∉ s.stack := by
  cases hc with
  | stop =>
    rw [TimerService.stop_stack]
    exact launches_iff h
  | releaseContext => exact release_iff h
  | @makeTimer maker =>
    have hstack : (Timer.make s maker).stack = s.stack := by
      unfold Timer.make
      split
      · rfl
      · split <;> rfl
    simp [hstack, State.relaunches]
  | start | startPeriodic | waitFuture | destroyTimer | makeClient | makeRequest
  | makeRequestThrows | disconnect | destroyClient | postTask | copyContext | send =>
    exact ⟨fun h => ⟨h, nofun⟩, fun h => h.1⟩

/-- A step that is no call of user code does not re-enter a queue. -/
theorem step_other (hreg : Registered s) (h : s.Stacked) (hn : NotReentered s.stack) {l : Label}
    (hl : ∀ c, l ≠ .command c) (hstep : Step s l t) : NotReentered t.stack := by
  have hwait : ∀ {u task h k}, WaitsFor u task h k → NotReentered [k] := by
    intro u task h k hk
    refine of_base fun g hg => ?_
    obtain rfl := List.mem_singleton.mp hg
    cases hk <;> rfl
  have hstacked : ∀ {f fs}, s.stack = f :: fs → Stacked s.server.responseContext (f :: fs) :=
    fun hstack => hstack ▸ h
  have htail : ∀ {f fs}, s.stack = f :: fs → NotReentered fs := fun hstack => (hstack ▸ hn).tail
  -- the handler of a response runs on the empty stack or on another handler's code
  have hresponse : ∀ {u : State} {c response}, Registered u → c < u.connCount →
      NotReentered u.stack →
        NotReentered (ClientService.onResponseReceived u c response).stack := by
    intro u c response hu hc hstack
    rw [ClientService.onResponseReceived_stack, (hu.conn c hc).2]
    exact (cons_other rfl rfl).mpr ((cons_other rfl rfl).mpr hstack)
  cases hstep with
  | @processRequest processor hstack =>
    cases processor with
    | router =>
      simp [Connection.processRequest, hstack, NotReentered, Frame.Reenters, Frame.launched,
        Frame.processed]
    | function =>
      refine (cons_other rfl rfl).mpr ((cons_other rfl rfl).mpr ?_)
      rw [hstack]
      exact nil
  | destroyConnection | finish | futureMadeReady => exact hn
  | outside => exact (cons_other rfl rfl).mpr hn
  | ignored hd | futureConsumed hd =>
    have hstack := hd.stack_eq
    simp [hstack]
  | callback hd hk =>
    refine (cons_other rfl rfl).mpr ?_
    simpa [hd.stack_eq] using hwait hk
  | timeout hd hk | futurePending hd hk => simpa [hd.stack_eq] using hwait hk
  | @timedOut _ _ _ _ c _ _ hd hk _ hc =>
    obtain ⟨hu, hfits⟩ := hreg.delivers hd
    have hpush := (hu.emit [.timeout c]).push_one ((hk.fits hfits).1.mono (.of_eq rfl))
    refine hresponse (hpush.endRequest c) (hu.inProgress _ hc) ?_
    simpa [hd.stack_eq] using hwait hk
  | futureReady hd hk =>
    refine (cons_other rfl rfl).mpr ((cons_other rfl rfl).mpr ?_)
    simpa [hd.stack_eq] using hwait hk
  | notConnected hd =>
    obtain ⟨hu, hc⟩ := hreg.delivers hd
    exact hresponse hu hc (by simp [hd.stack_eq])
  | connected hd hv | transferred hd _ _ hv => simp [hv.stack, hd.stack_eq]
  | refused hd hv =>
    obtain ⟨hu, hc⟩ := hreg.delivers hd
    exact hresponse (hu.onSocket hc hv) (Nat.lt_of_lt_of_eq hc hv.connCount.symm)
      (by simp [hv.stack, hd.stack_eq])
  | received hd hv =>
    refine (cons_other rfl rfl).mpr ?_
    simp [hv.stack, hd.stack_eq]
  | @answered _ _ c _ _ _ hd hv =>
    obtain ⟨hu, hc⟩ := hreg.delivers hd
    have hlt := Nat.lt_of_lt_of_eq hc hv.connCount.symm
    have hpush := ((hu.onSocket hc hv).push_one (f := .afterReceive c) hlt).endRequest c
    refine hresponse hpush hlt ((cons_other rfl rfl).mpr ?_)
    simp [hv.stack, hd.stack_eq]
  | task hd =>
    refine (cons_other rfl rfl).mpr ((cons_other rfl rfl).mpr ?_)
    simp [hd.stack_eq]
  | @discard i _ _ hstack =>
    exact releaseHeld (s := { s with ops := s.ops.eraseIdx i }) (by simp [hstack]) _
  | release hstack => exact (release_iff h).mpr ⟨hn, fun q _ => by simp [hstack]⟩
  | command => exact absurd rfl (hl _)
  | @ret answer code fs hstack =>
    have hret : (s.returns code fs answer).stack = fs := by
      unfold State.returns
      split <;> rfl
    rw [hret]
    exact htail hstack
  | throw hstack => exact unwind _ _ (hstacked hstack).2 (htail hstack)
  | runProcessor hstack =>
    rw [State.push_stack, State.emit_stack, hstack]
    exact processor (hstack ▸ hn)
  | done hstack => exact htail hstack
  | oneShotDone hstack | futureDone hstack =>
    rw [TimerService.stop_stack]
    exact launches_handlers (hstacked hstack).1
  | tickDone hstack => exact htail hstack
  | responseDone hstack =>
    rw [ClientService.afterResponse_stack]
    exact launches_handlers (hstacked hstack).1
  | receiveDone hstack hv =>
    rw [hv.stack]
    exact htail hstack
  | @taskDone _ p fs hstack =>
    exact releaseHeld (s := { s with stack := fs }) (hstacked hstack).1 p
  | rethrown hstack => exact unwind _ none (hstacked hstack).2 (htail hstack)

end NotReentered

/-- From a state where no queue is re-entered, a step re-enters none exactly when it is no call
that launches a queue which is being launched. -/
theorem notReentered_step_iff {s t : State} (hreg : Registered s) (h : s.Stacked)
    (hn : NotReentered s.stack) {l : Label} (hstep : Step s l t) :
    NotReentered t.stack ↔ NoRelaunch s l := by
  by_cases hl : ∃ c, l = .command c
  · obtain ⟨c, rfl⟩ := hl
    cases hstep with
    | command _ hc =>
      rw [NotReentered.command_iff h hc]
      exact and_iff_right hn
  · have hother := NotReentered.step_other hreg h hn (fun c hc => hl ⟨c, hc⟩) hstep
    refine iff_of_true hother ?_
    cases l <;> first | trivial | exact absurd ⟨_, rfl⟩ hl

/-- **Re-entry, exactly.** In the states of a run no launch of a queue runs inside another launch
or a processor of its request, and no processor inside another, if and only if no call of user
code in the run launches a queue that is being launched. -/
theorem notReentered_iff (l : List Label) :
    runtime.EachStep (fun _ _ t => NotReentered t.stack) runtime.init l ↔
      runtime.EachStep (fun s a _ => NoRelaunch s a) runtime.init l := by
  refine Machine.eachStep_iff (J := fun s => (Registered s ∧ s.Stacked) ∧ NotReentered s.stack)
    ?_ ?_ ⟨⟨Registered.init, Stacked.nil⟩, NotReentered.nil⟩ l
  · rintro s a t ⟨⟨hreg, hstacked⟩, hn⟩ hstep
    exact notReentered_step_iff hreg hstacked hn (Step.of_step hstep)
  · rintro s a t ⟨⟨hreg, hstacked⟩, hn⟩ hguard hstep
    have hstep := Step.of_step hstep
    exact ⟨⟨hreg.step hstep, Stacked.step hreg hstacked hstep⟩,
      (notReentered_step_iff hreg hstacked hn hstep).mpr hguard⟩

/-- A processor that stops a timer which was never started runs the next processors inside
itself. -/
theorem reentered_by_stop : ∃ s, runtime.run runtime.init
      [.processRequest .router, .runProcessor, .command (.makeTimer (some 0)),
        .command (.stop 0)] = some s ∧
    s.stack = [.launch 0, .user (.processor 0), .launch 0, .tryBlock 0] ∧
      ¬ NotReentered s.stack := by
  refine ⟨_, rfl, rfl, ?_⟩
  intro h
  exact (List.pairwise_cons.mp h).1 (.user (.processor 0)) (by decide) ⟨0, Or.inl ⟨rfl, Or.inr rfl⟩⟩

end Asyncgi
