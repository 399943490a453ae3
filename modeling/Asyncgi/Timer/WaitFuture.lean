import Asyncgi.Timer.Futures

/-!
# Waiting for a future

`Timer::waitFuture` is a periodic wait whose callback, once it finds the future ready, reads it,
calls the user's function and stops the timer. The periodic handler arms the timer again after its
callback, whatever the callback did.

## Main definitions

* `futureWait`: the wait of `waitFuture`
* `State.uses`: user code uses the timer, or the future once more
* `Awaits`: the timer waits for the future and for nothing else, and no other timer does
* `InTick`: the handler of the tick that has found the future ready is running
* `Settles`: what `waitFuture` is to leave behind
* `EndsInException`: an exception ends the tick

## Main results

* `waitFuture_settles`: it does so only where an exception ends the tick
-/

namespace Asyncgi

/-- The wait that `waitFuture` puts on the timer. -/
def futureWait (tm : TimerId) (f : FutureId) (checkPeriod : Milliseconds) : Wait :=
  (.periodic tm checkPeriod (.checkFuture f), checkPeriod)

/-- User code gives the timer an order or destroys it, or moves the future into a `waitFuture`. -/
def State.uses (s : State) (tm : TimerId) (f : FutureId) : Label → Bool
  | .command (.waitFuture t g _) => t == tm || g == f
  | .command (.destroyTimer t) => t == tm
  | .command c => (s.orderTo tm (.command c)).isSome
  | _ => false

/-- The rest of a handler that will wait for the future again. -/
def Frame.checks (f : FutureId) : Frame → Bool
  | afterPeriodic _ _ (.checkFuture g) => g == f
  | _ => false

/-- The timer has no expired wait and is not in a tick, and the future has not been waited for. -/
structure Idle (tm : TimerId) (f : FutureId) (s : State) : Prop where
  expired : (s.timing tm).expired = []
  rearms : (s.timing tm).rearms = []
  handlers : ∀ h ∈ s.handlers, h.checks f = false
  stack : ∀ g ∈ s.stack, g.checks f = false

instance (tm : TimerId) (f : FutureId) (s : State) : Decidable (Idle tm f s) :=
  decidable_of_iff
    ((s.timing tm).expired = [] ∧ (s.timing tm).rearms = [] ∧
      (∀ h ∈ s.handlers, h.checks f = false) ∧ ∀ g ∈ s.stack, g.checks f = false)
    ⟨fun ⟨he, hr, hh, hs⟩ => ⟨he, hr, hh, hs⟩, fun h => ⟨h.1, h.2, h.3, h.4⟩⟩

/-- The request queue that the timer refers to, where it exists, is not paused. -/
def State.resumed (s : State) (tm : TimerId) : Bool :=
  (s.server.lock (s.timers tm).requestProcessorQueue).all fun q => !s.paused q

/-- What `waitFuture` is to leave behind, after the tick that has read the future as `v` and has
led from `s` to `t`: in every further run in which user code uses neither the timer nor the future
again, the future has been read once, is asked nothing any more, and the timer has no wait; and the
queue is resumed. -/
structure Settles (tm : TimerId) (f : FutureId) (v : Nat) (s t : State) : Prop where
  further : ∀ l u, runtime.EachStep (fun s a _ => s.uses tm f a = false) t l →
    runtime.run t l = some u →
      u.gets f = [v] ∧ u.queries f = s.queries f ∧ (u.timing tm).waits = []
  resumed : t.resumed tm = true

/-- An exception ends the tick `k`, at a moment at which the queue is not paused. -/
def EndsInException (tm : TimerId) (s : State) (k : List Label) : Prop :=
  ∃ k' what catcher t, k = k' ++ [.throw what catcher] ∧ runtime.run s k' = some t ∧
    t.resumed tm = true

/-! ## The timer waits for the future and for nothing else -/

/-- What there is of the timer. -/
def Timing.all (x : Timing) : List Wait := x.waits ++ x.rearms

structure Awaits (tm : TimerId) (f : FutureId) (checkPeriod : Milliseconds) (s : State) : Prop where
  own : (s.timing tm).all.Sublist [futureWait tm f checkPeriod]
  others : ∀ u, u ≠ tm → ∀ w ∈ (s.timing u).all, w.1.checks f = false

section Orders

variable {tm u : TimerId} {f : FutureId} {s : State} {l : Label} {o : Order}

/-- Outside of the calls of user code, a timer is only ever stopped. -/
theorem State.order_stop_of (hl : ∀ c, l ≠ .command c) (ho : s.orderTo u l = some o) :
    o = .stop := by
  unfold orderTo order at ho
  split at ho
  case h_6 i moves =>
    cases hc : s.answered i moves <;> simp_all
  case h_7 =>
    split at ho <;> simp_all
  case h_8 => cases ho
  all_goals exact absurd rfl (hl _)

/-- Without a use of it, the timer is only ever stopped. -/
theorem State.order_stop (hl : s.uses tm f l = false) (ho : s.orderTo tm l = some o) :
    o = .stop := by
  by_cases hcommand : ∃ c, l = .command c
  · obtain ⟨c, rfl⟩ := hcommand
    cases c
    case waitFuture t g checkPeriod =>
      simp only [uses, Bool.or_eq_false_iff, beq_eq_false_iff_ne] at hl
      simp [orderTo, order, hl.1] at ho
    case destroyTimer t => cases ho
    all_goals simp [uses, ho] at hl
  · exact order_stop_of (by simpa using hcommand) ho

/-- Without a use of it, no timer is ordered to wait for the future. -/
theorem State.order_checks (hl : s.uses tm f l = false) (ho : s.orderTo u l = some o) {w : Wait}
    (hw : o.wait u = some w) : w.1.checks f = false := by
  by_cases hcommand : ∃ c, l = .command c
  · obtain ⟨c, rfl⟩ := hcommand
    cases c <;> simp only [orderTo, order, Option.bind_some, Option.bind_none, reduceCtorEq,
      Option.ite_none_right_eq_some, Option.some.injEq] at ho
    case waitFuture t g checkPeriod =>
      simp only [uses, Bool.or_eq_false_iff] at hl
      obtain ⟨-, rfl⟩ := ho
      obtain rfl := Option.some.inj hw
      exact hl.2
    case stop =>
      obtain ⟨-, rfl⟩ := ho
      cases hw
    all_goals
      obtain ⟨-, rfl⟩ := ho
      obtain rfl := Option.some.inj hw
      rfl
  · rw [order_stop_of (by simpa using hcommand) ho] at hw
    cases hw

end Orders

namespace TimerStep

variable {tm : TimerId} {s : State} {l : Label} {y : Timing}

/-- A property of waits that a handler keeps, and that every order gives, is one of all waits. -/
theorem all_of {P : Wait → Prop} (h : TimerStep tm s l (s.timing tm) y)
    (hx : ∀ w ∈ (s.timing tm).all, P w) (hrearm : ∀ w w', P w → w.1.rearm = some w' → P w')
    (horder : ∀ o w, s.orderTo tm l = some o → o.wait tm = some w → P w) : ∀ w ∈ y.all, P w := by
  have hwaits : ∀ w ∈ (s.timing tm).waits, P w := fun w hw => hx w (List.mem_append_left _ hw)
  have hrearms : ∀ w ∈ (s.timing tm).rearms, P w := fun w hw => hx w (List.mem_append_right _ hw)
  have hexpired : ∀ w ∈ (s.timing tm).expired, P w := fun w hw =>
    hwaits w ((s.expired_sublist tm).subset hw)
  intro w hw
  rcases List.mem_append.mp hw with hw | hw
  · cases h with
    | quiet _ _ hy | unwound _ _ _ hy => exact hwaits w (hy ▸ hw)
    | @ordered o ho _ hy =>
      rw [hy, List.mem_append, Option.mem_toList] at hw
      rcases hw with hw | hw
      · exact hexpired w hw
      · exact horder o w ho hw
    | fired _ _ hy | threw _ _ _ hy => exact hwaits w (hy.subset (List.mem_cons_of_mem _ hw))
    | firedStop _ _ hy => exact hexpired w (hy.subset (List.mem_cons_of_mem _ hw))
    | stopped _ _ _ _ hy | destroyed _ _ hy => exact hexpired w (hy ▸ hw)
    | rearmed _ _ _ _ hy hyr =>
      rw [hy, List.mem_append, List.mem_singleton] at hw
      rcases hw with hw | rfl
      · exact hexpired w hw
      · exact hrearms _ (hyr ▸ List.mem_cons_self)
  · cases h with
    | quiet _ _ _ hy | ordered _ _ _ hy | stopped _ _ _ _ _ hy | destroyed _ _ _ hy =>
      exact hrearms w (hy ▸ hw)
    | unwound _ _ _ _ hy => exact hrearms w (hy.subset hw)
    | @fired v _ _ hperm _ hy =>
      rw [hy, Option.mem_toList] at hw
      exact hrearm v w (hwaits v (hperm.subset List.mem_cons_self)) hw
    | threw _ _ _ _ hy =>
      rw [hy] at hw
      cases hw
    | @firedStop v _ _ hperm hy =>
      rw [hy, Option.mem_toList] at hw
      exact hrearm v w (hexpired v (hperm.subset List.mem_cons_self)) hw
    | rearmed _ _ _ _ _ hy => exact hrearms w (hy ▸ List.mem_cons_of_mem _ hw)

/-- A timer that has one wait at most, a periodic one, keeps to it while it is only stopped. -/
theorem all_sublist {w₀ : Wait} (h : TimerStep tm s l (s.timing tm) y)
    (hx : (s.timing tm).all.Sublist [w₀]) (hrearm : w₀.1.rearm = some w₀)
    (horder : ∀ o, s.orderTo tm l = some o → o = .stop) : y.all.Sublist [w₀] := by
  have hwaits : (s.timing tm).waits.Sublist [w₀] := (List.sublist_append_left _ _).trans hx
  have hcancel : ((s.timing tm).expired ++ (s.timing tm).rearms).Sublist [w₀] :=
    ((s.expired_sublist tm).append (List.Sublist.refl _)).trans hx
  have hfire : ∀ {w ws}, (w :: ws).Perm (s.timing tm).waits → ws = [] ∧ w = w₀ := by
    intro w ws hperm
    rcases List.sublist_singleton.mp hwaits with hnone | hone
    · rw [hnone] at hperm
      cases hperm.eq_nil
    · rw [hone] at hperm
      obtain ⟨rfl, rfl⟩ := List.cons_eq_cons.mp (List.perm_singleton.mp hperm)
      exact ⟨rfl, rfl⟩
  unfold Timing.all
  cases h with
  | quiet _ _ hy hyr =>
    rw [hy, hyr]
    exact hx
  | unwound _ _ _ hy hyr =>
    rw [hy]
    exact ((List.Sublist.refl _).append hyr).trans hx
  | ordered ho _ hy hyr =>
    obtain rfl := horder _ ho
    rw [hy, hyr]
    simpa [Order.wait] using hcancel
  | fired _ _ hperm _ hyr =>
    obtain ⟨hnone, rfl⟩ := hfire hperm
    rw [hnone, hyr, hrearm]
    exact List.Sublist.refl _
  | threw _ _ _ hperm hyr =>
    obtain ⟨hnone, rfl⟩ := hfire hperm
    rw [hnone, hyr]
    exact List.nil_sublist _
  | @firedStop w _ _ hperm hyr =>
    have hexpired := (s.expired_sublist tm).trans hwaits
    rcases List.sublist_singleton.mp hexpired with hnone | hone
    · rw [hnone] at hperm
      cases hperm.eq_nil
    · rw [hone] at hperm
      obtain ⟨rfl, hnone⟩ := List.cons_eq_cons.mp (List.perm_singleton.mp hperm)
      rw [hnone, hyr, hrearm]
      exact List.Sublist.refl _
  | stopped _ _ _ _ hy hyr | destroyed _ _ hy hyr =>
    rw [hy, hyr]
    exact hcancel
  | rearmed _ _ _ _ hy hyr =>
    rw [hyr] at hcancel
    rw [hy, List.append_assoc]
    exact hcancel

end TimerStep

theorem futureWait_rearm (tm : TimerId) (f : FutureId) (checkPeriod : Milliseconds) :
    (futureWait tm f checkPeriod).1.rearm = some (futureWait tm f checkPeriod) := rfl

/-- What a handler arms its timer with asks the same future. -/
theorem Handler.checks_rearm {f : FutureId} {w w' : Wait} (hw : w.1.checks f = false)
    (h : w.1.rearm = some w') : w'.1.checks f = false := by
  obtain ⟨handler, delay⟩ := w
  cases handler <;> simp only [Handler.rearm, Option.some.injEq, reduceCtorEq] at h
  case periodic => exact h ▸ hw

namespace Awaits

variable {tm : TimerId} {f : FutureId} {checkPeriod : Milliseconds} {s t : State} {l : Label}

/-- What user code does without the timer and the future leaves the timer waiting. -/
theorem step (h : Awaits tm f checkPeriod s) (hreg : Registered s) (hl : s.uses tm f l = false)
    (hstep : s.step l = some t) : Awaits tm f checkPeriod t where
  own := (TimerStep.of_step hreg hstep).all_sublist h.own (futureWait_rearm tm f checkPeriod)
    fun _ ho => State.order_stop hl ho
  others u hu := (TimerStep.of_step hreg hstep).all_of (h.others u hu)
    (fun _ _ => Handler.checks_rearm) fun _ _ ho hw => State.order_checks hl ho hw

theorem run (h : Awaits tm f checkPeriod s) (hreg : Registered s) {l : List Label}
    (hl : runtime.EachStep (fun s a _ => s.uses tm f a = false) s l)
    (hrun : runtime.run s l = some t) : Registered t ∧ Awaits tm f checkPeriod t :=
  hl.invariant (J := fun s => Registered s ∧ Awaits tm f checkPeriod s)
    (fun _ _ _ hs huses hstep =>
      ⟨hs.1.step (Step.of_step hstep), hs.2.step hs.1 huses hstep⟩) hrun ⟨hreg, h⟩

/-- The call of `waitFuture`. -/
theorem call (hreg : Registered s) (hidle : Idle tm f s)
    (hstep : s.step (.command (.waitFuture tm f checkPeriod)) = some t) :
    Awaits tm f checkPeriod t where
  own := by
    have horder : s.orderTo tm (.command (.waitFuture tm f checkPeriod)) =
        some (.startPeriodic checkPeriod (.checkFuture f)) := by simp [State.orderTo, State.order]
    have hself : TimerStep tm s _ (s.timing tm) (t.timing tm) := TimerStep.of_step hreg hstep
    unfold Timing.all
    generalize t.timing tm = y at hself ⊢
    cases hself
    case ordered o ho _ hy hyr _ =>
      obtain rfl := Option.some.inj (horder.symm.trans ho)
      rw [hy, hyr, hidle.expired, hidle.rearms]
      exact List.Sublist.refl _
    all_goals simp_all
  others u hu := by
    refine (TimerStep.of_step hreg hstep).all_of (fun w hw => ?_) (fun _ _ => Handler.checks_rearm)
      fun o w ho => ?_
    · rcases List.mem_append.mp hw with hw | hw
      · obtain ⟨op, hop, hlive⟩ := List.mem_filterMap.mp hw
        have hhandler := hidle.handlers op.handler (State.mem_handlers.mpr ⟨op, hop, rfl⟩)
        unfold AsyncOp.live AsyncOp.wait at hlive
        split at hlive
        · cases hlive
        · split at hlive
          · exact Option.some.inj hlive ▸ hhandler
          · cases hlive
      · obtain ⟨g, hg, hrearm⟩ := List.mem_filterMap.mp hw
        have hframe := hidle.stack g hg
        cases g <;> simp only [Frame.rearm, reduceCtorEq] at hrearm
        case afterPeriodic x time task =>
          split at hrearm
          · obtain rfl := Option.some.inj hrearm
            cases task <;> first | rfl | exact hframe
          · cases hrearm
    · simp [State.orderTo, State.order, Ne.symm hu] at ho

end Awaits

/-! ## The tick that finds the future ready -/

/-- User code, and code of asyncgi that user code can call. -/
def Frame.isInner : Frame → Bool
  | user _ | launch _ | postAction _ => true
  | _ => false

/-- The queues that a call launches are pushed, with the destructor that launches them. -/
theorem CommandStep.pushes {s t : State} {c : Command} (hc : CommandStep s c t) :
    ∃ fs, t.stack = fs ++ s.stack ∧ ∀ g ∈ fs, g.isInner = true := by
  have hlaunches : ∀ q : Option RequestId, ∀ g ∈ (s.server.lock q).toList.map Frame.launch,
      g.isInner = true := by
    intro q g hg
    obtain ⟨r, -, rfl⟩ := List.mem_map.mp hg
    rfl
  cases hc with
  | @makeTimer maker =>
    refine ⟨[], ?_, nofun⟩
    cases maker with
    | none => rfl
    | some r =>
      by_cases hr : s.server.responseContext = some r
      · rw [Timer.make_current hr]
        rfl
      · rw [Timer.make_expired hr]
        rfl
  | stop => exact ⟨_, TimerService.stop_stack _ _, hlaunches _⟩
  | @releaseContext p =>
    by_cases hlast : (s.contexts p).copies ≤ 1 ∧ (s.contexts p).held = false
    · rw [TaskContext.release_last hlast, TaskContext.destroy_stack]
      refine ⟨_, (List.append_assoc _ _ _).symm, fun g hg => ?_⟩
      rcases List.mem_append.mp hg with hg | hg
      · exact hlaunches _ g hg
      · rw [List.eq_of_mem_replicate hg]
        rfl
    · rw [TaskContext.release_shared hlast]
      exact ⟨[], rfl, nofun⟩
  | start | startPeriodic | waitFuture | destroyTimer | makeClient | makeRequest
  | makeRequestThrows | disconnect | destroyClient | postTask | copyContext | send =>
    exact ⟨[], rfl, nofun⟩

/-- The frames of the tick's handler: all of them, or those that are left once the timer has been
stopped. -/
def TickFrames (tm : TimerId) (f : FutureId) (checkPeriod : Milliseconds) (base : List Frame) :
    Prop :=
  base = [.afterFuture tm, .afterPeriodic tm checkPeriod (.checkFuture f)] ∨
    base = [.afterPeriodic tm checkPeriod (.checkFuture f)]

/-- In the tick an exception is caught by user code, or leaves the handler; it meets no destructor
that launches a queue. -/
theorem State.unwind_tick {tm : TimerId} {f : FutureId} {checkPeriod : Milliseconds}
    {top base : List Frame} (htop : ∀ g ∈ top, g.isInner = true)
    (hbase : TickFrames tm f checkPeriod base) (what : Option String) (catcher : Option Nat)
    (s : State) :
    (∃ gs, (∀ g ∈ gs, g.isInner = true) ∧
      unwind what catcher (top ++ base) s = { s with stack := gs ++ base }) ∨
    ((unwind what catcher (top ++ base) s).stack = [] ∧
      (unwind what catcher (top ++ base) s).paused = s.paused ∧
      (unwind what catcher (top ++ base) s).server = s.server ∧
      (unwind what catcher (top ++ base) s).timers = s.timers) := by
  induction top with
  | nil =>
    rcases hbase with rfl | rfl
    · exact Or.inr ⟨rfl, rfl, rfl, rfl⟩
    · exact Or.inr ⟨rfl, rfl, rfl, rfl⟩
  | cons g top ih =>
    obtain ⟨hg, hrest⟩ := List.forall_mem_cons.mp htop
    cases g
    case user code =>
      simp only [List.cons_append, unwind]
      split
      · exact Or.inl ⟨.user code :: top, htop, rfl⟩
      · exact ih hrest
    case launch => exact ih hrest
    case postAction => exact Or.inr ⟨rfl, rfl, rfl, rfl⟩
    all_goals simp [Frame.isInner] at hg

/-- The handler of the tick that has found the future ready: it runs the user's function, or has
stopped the timer. If the timer was `idle`, there is no other wait. -/
structure InTick (idle : Prop) (tm : TimerId) (f : FutureId) (checkPeriod : Milliseconds)
    (s : State) : Prop where
  stack : ∃ top base, s.stack = top ++ base ∧ (∀ g ∈ top, g.isInner = true) ∧
    TickFrames tm f checkPeriod base
  waits : idle → (s.timing tm).waits = []

namespace InTick

variable {idle : Prop} {tm : TimerId} {f : FutureId} {checkPeriod : Milliseconds} {s t : State}
  {l : Label}

theorem stack_ne_nil (h : InTick idle tm f checkPeriod s) : s.stack ≠ [] := by
  obtain ⟨top, base, hstack, -, rfl | rfl⟩ := h.stack <;> simp [hstack]

/-- The frame on top is one of those above the handler's, or the handler's. -/
theorem top_cases (h : InTick idle tm f checkPeriod s) {g : Frame} {fs : List Frame}
    (hstack : s.stack = g :: fs) :
    (g.isInner = true ∧ ∀ u : State, u.stack = fs → (idle → (u.timing tm).waits = []) →
      InTick idle tm f checkPeriod u) ∨
    (g = .afterFuture tm ∧ fs = [.afterPeriodic tm checkPeriod (.checkFuture f)]) ∨
    (g = .afterPeriodic tm checkPeriod (.checkFuture f) ∧ fs = []) := by
  obtain ⟨top, base, hs, htop, hbase⟩ := h.stack
  rw [hs] at hstack
  rcases List.append_eq_cons_iff.mp hstack with ⟨rfl, hsplit⟩ | ⟨top', rfl, rfl⟩
  · rcases hbase with rfl | rfl
    · obtain ⟨rfl, rfl⟩ := List.cons_eq_cons.mp hsplit
      exact Or.inr (Or.inl ⟨rfl, rfl⟩)
    · obtain ⟨rfl, rfl⟩ := List.cons_eq_cons.mp hsplit
      exact Or.inr (Or.inr ⟨rfl, rfl⟩)
  · obtain ⟨hg, htop'⟩ := List.forall_mem_cons.mp htop
    exact Or.inl ⟨hg, fun u hu hwaits => ⟨⟨top', base, hu, htop', hbase⟩, hwaits⟩⟩

/-- Frames that user code and its calls push. -/
theorem pushed (h : InTick idle tm f checkPeriod s) (fs : List Frame)
    (hstack : t.stack = fs ++ s.stack)
    (hfs : ∀ g ∈ fs, g.isInner = true) (hwaits : idle → (t.timing tm).waits = []) :
    InTick idle tm f checkPeriod t := by
  obtain ⟨top, base, hs, htop, hbase⟩ := h.stack
  refine ⟨⟨fs ++ top, base, ?_, fun g hg => ?_, hbase⟩, hwaits⟩
  · rw [hstack, hs, List.append_assoc]
  · rcases List.mem_append.mp hg with hg | hg
    · exact hfs g hg
    · exact htop g hg

/-- While the timer is only stopped, and is not armed by the end of a tick, it has no wait. -/
theorem waits_nil (h : InTick idle tm f checkPeriod s) (hidle : idle) (hl : s.uses tm f l = false)
    (hstep : TimerStep tm s l (s.timing tm) (t.timing tm)) : (t.timing tm).waits = [] ∨
    ∃ moves time task fs, l = .resume moves ∧ s.stack = .afterPeriodic tm time task :: fs := by
  have hexpired : (s.timing tm).expired = [] :=
    List.sublist_nil.mp (h.waits hidle ▸ s.expired_sublist tm)
  cases hstep with
  | quiet _ _ hy | unwound _ _ _ hy => exact Or.inl (hy.trans (h.waits hidle))
  | ordered ho _ hy =>
    obtain rfl := State.order_stop hl ho
    left
    rw [hy, hexpired]
    rfl
  | fired _ _ hperm | threw _ _ _ hperm =>
    rw [h.waits hidle] at hperm
    cases hperm.eq_nil
  | firedStop _ _ hperm =>
    rw [hexpired] at hperm
    cases hperm.eq_nil
  | stopped _ _ _ _ hy | destroyed _ _ hy => exact Or.inl (hy.trans hexpired)
  | rearmed hl hstack => exact Or.inr ⟨_, _, _, _, hl, hstack⟩

/-- The tick goes on, ends with the timer armed again, or is left by an exception. -/
theorem step (h : InTick idle tm f checkPeriod s) (hreg : Registered s) (hl : s.uses tm f l = false)
    (hstep : s.step l = some t) : InTick idle tm f checkPeriod t ∨
    (∃ moves, l = .resume moves ∧ t.stack = [] ∧
      futureWait tm f checkPeriod ∈ (t.timing tm).waits) ∨
    ∃ what catcher, l = .throw what catcher ∧ t.stack = [] ∧
      (idle → (t.timing tm).waits = []) ∧ t.resumed tm = s.resumed tm := by
  have htiming : TimerStep tm s l (s.timing tm) (t.timing tm) := TimerStep.of_step hreg hstep
  have hne := h.stack_ne_nil
  have hkept : ∀ {g fs}, s.stack = g :: fs → (∀ time task, g ≠ .afterPeriodic tm time task) →
      idle → (t.timing tm).waits = [] := by
    intro g fs hstack hg hidle
    rcases h.waits_nil hidle hl htiming with hnone | ⟨_, time, task, _, -, hperiodic⟩
    · exact hnone
    · rw [hstack] at hperiodic
      exact absurd (List.cons_eq_cons.mp hperiodic).1 (hg time task)
  have hcall : ∀ {code fs}, s.stack = .user code :: fs → idle → (t.timing tm).waits = [] :=
    fun hstack => hkept hstack nofun
  cases Step.of_step hstep with
  | processRequest hstack | destroyConnection hstack | outside hstack | discard hstack
  | release hstack => exact absurd hstack hne
  | ignored hd | callback hd | timeout hd | timedOut hd | futurePending hd | futureReady hd
  | futureConsumed hd | notConnected hd | connected hd | refused hd | transferred hd | received hd
  | answered hd | task hd => exact absurd hd.stack hne
  | finish | futureMadeReady =>
    left
    refine h.pushed [] rfl nofun fun hidle => ?_
    rcases h.waits_nil hidle hl htiming with hnone | ⟨_, _, _, _, hresume, -⟩
    · exact hnone
    · cases hresume
  | command hstack hc =>
    obtain ⟨fs, hpush, hfs⟩ := hc.pushes
    exact Or.inl (h.pushed fs hpush hfs (hcall hstack))
  | @ret answer code fs hstack =>
    have hnone := hcall hstack
    rcases h.top_cases hstack with ⟨-, hpop⟩ | ⟨hg, -⟩ | ⟨hg, -⟩
    · refine Or.inl (hpop _ ?_ hnone)
      unfold State.returns
      split <;> rfl
    · cases hg
    · cases hg
  | @throw what catcher code fs hstack =>
    have hnone := hcall hstack
    rcases h.top_cases hstack with ⟨-, hpop⟩ | ⟨hg, -⟩ | ⟨hg, -⟩
    · have hwaits : idle → (({ s with stack := fs } : State).timing tm).waits = [] := h.waits
      obtain ⟨top, base, hfs, htop, hbase⟩ := (hpop { s with stack := fs } rfl hwaits).stack
      obtain rfl : fs = top ++ base := hfs
      rcases State.unwind_tick htop hbase what catcher (s.emit [.threw code what]) with
        ⟨gs, hgs, hcaught⟩ | ⟨hempty, hpaused, hserver, htimers⟩
      · exact Or.inl ⟨⟨gs, base, congrArg State.stack hcaught, hgs, hbase⟩, hnone⟩
      · refine Or.inr (Or.inr ⟨what, catcher, rfl, hempty, hnone, ?_⟩)
        unfold State.resumed
        rw [hpaused, hserver, htimers]
        rfl
    · cases hg
    · cases hg
  | runProcessor hstack =>
    exact Or.inl (h.pushed [_] rfl (by simp [Frame.isInner]) (hkept hstack nofun))
  | @done moves g fs hstack hg =>
    have hnone := hkept hstack (by rintro time task rfl; cases hg)
    rcases h.top_cases hstack with ⟨-, hpop⟩ | ⟨rfl, -⟩ | ⟨rfl, -⟩
    · exact Or.inl (hpop _ rfl hnone)
    · cases hg
    · cases hg
  | @tickDone moves x time task fs hstack =>
    rcases h.top_cases hstack with ⟨hg, -⟩ | ⟨hg, -⟩ | ⟨hg, rfl⟩
    · cases hg
    · cases hg
    · obtain ⟨rfl, rfl, rfl⟩ := Frame.afterPeriodic.inj hg
      refine Or.inr (Or.inl ⟨moves, rfl, rfl, ?_⟩)
      rw [State.timing_startPeriodic]
      exact List.mem_append_right _ (List.mem_singleton_self _)
  | @futureDone moves x fs hstack =>
    have hnone := hkept hstack nofun
    rcases h.top_cases hstack with ⟨hg, -⟩ | ⟨-, rfl⟩ | ⟨hg, -⟩
    · cases hg
    · -- the queue is launched over the periodic handler
      refine Or.inl ⟨⟨_, _, TimerService.stop_stack _ x, fun g hg => ?_, Or.inr rfl⟩, hnone⟩
      obtain ⟨r, -, rfl⟩ := List.mem_map.mp hg
      rfl
    · cases hg
  | oneShotDone hstack | responseDone hstack | receiveDone hstack | taskDone hstack
  | rethrown hstack =>
    rcases h.top_cases hstack with ⟨hg, -⟩ | ⟨hg, -⟩ | ⟨hg, -⟩
    · cases hg
    · cases hg
    · cases hg

/-- A tick ends with the timer armed again, or is left by an exception. -/
theorem run (h : InTick idle tm f checkPeriod s) (hreg : Registered s) {k : List Label}
    (hcode : runtime.EachStep (fun s a _ => s.stack ≠ [] ∧ s.uses tm f a = false) s k)
    (hk : runtime.run s k = some t) (hend : t.stack = []) :
    (∃ k' moves, k = k' ++ [.resume moves] ∧ futureWait tm f checkPeriod ∈ (t.timing tm).waits) ∨
      ∃ k' what catcher u, k = k' ++ [.throw what catcher] ∧ runtime.run s k' = some u ∧
        (idle → (t.timing tm).waits = []) ∧ t.resumed tm = u.resumed tm := by
  induction k generalizing s with
  | nil =>
    obtain rfl := Option.some.inj hk
    exact absurd hend h.stack_ne_nil
  | cons a k ih =>
    obtain ⟨v, hv, hk'⟩ := (Machine.run_cons_eq_some runtime).mp hk
    obtain ⟨⟨-, huses⟩, hcode'⟩ := hcode v hv
    -- a state with nothing on the call stack is the last one of the tick
    have hlast : v.stack = [] → k = [] ∧ v = t := by
      intro hstack
      cases k with
      | nil => exact ⟨rfl, Option.some.inj hk'⟩
      | cons b k =>
        obtain ⟨u, hu, -⟩ := (Machine.run_cons_eq_some runtime).mp hk'
        exact absurd hstack (hcode' u hu).1.1
    rcases h.step hreg huses hv with hin | ⟨moves, rfl, hstack, hwaits⟩ |
      ⟨what, catcher, rfl, hstack, hwaits, hresumed⟩
    · rcases ih hin (hreg.step (Step.of_step hv)) hcode' hk' with ⟨k', moves, rfl, hwaits⟩ |
        ⟨k', what, catcher, u, rfl, hu, hrest⟩
      · exact Or.inl ⟨a :: k', moves, rfl, hwaits⟩
      · exact Or.inr ⟨a :: k', what, catcher, u, rfl,
          (Machine.run_cons_eq_some runtime).mpr ⟨v, hv, hu⟩, hrest⟩
    · obtain ⟨rfl, rfl⟩ := hlast hstack
      exact Or.inl ⟨[], moves, rfl, hwaits⟩
    · obtain ⟨rfl, rfl⟩ := hlast hstack
      exact Or.inr ⟨[], what, catcher, s, rfl, rfl, hwaits, hresumed⟩

end InTick

/-! ## What is left behind -/

/-- The future has been read, no wait asks it, and the timer has none. -/
structure Forgotten (tm : TimerId) (f : FutureId) (asked : List Event × Future) (s : State) :
    Prop where
  registered : Registered s
  own : (s.timing tm).all = []
  others : ∀ u, ∀ w ∈ (s.timing u).all, w.1.checks f = false
  asked : s.asked f = asked

theorem Forgotten.step {tm : TimerId} {f : FutureId} {asked : List Event × Future} {s t : State}
    {l : Label} (h : Forgotten tm f asked s) (hasked : asked.2 = .consumed)
    (hl : s.uses tm f l = false) (hstep : s.step l = some t) : Forgotten tm f asked t where
  registered := h.registered.step (Step.of_step hstep)
  own := by
    have hnone : ∀ w ∈ (t.timing tm).all, False :=
      (TimerStep.of_step h.registered hstep).all_of (by simp [h.own]) (fun _ _ hw _ => hw)
        fun o w ho hw => by
          obtain rfl := State.order_stop hl ho
          cases hw
    exact List.eq_nil_iff_forall_not_mem.mpr hnone
  others u := (TimerStep.of_step h.registered hstep).all_of (h.others u)
    (fun _ _ => Handler.checks_rearm) fun _ _ ho hw => State.order_checks hl ho hw
  asked := by
    refine (State.asked_consumed hstep (h.asked ▸ hasked) ?_).trans h.asked
    rintro ⟨u, w, hfires, hchecks⟩
    have hno := h.others u w (List.mem_append_left _ (State.fires_mem hfires))
    rw [hchecks] at hno
    cases hno

/-- What the future was asked, and that it was read, stays as it is while its handler runs. -/
theorem asked_tick {tm : TimerId} {f : FutureId} {s t : State} {k : List Label}
    (hf : (s.asked f).2 = .consumed)
    (hcode : runtime.EachStep (fun s a _ => s.stack ≠ [] ∧ s.uses tm f a = false) s k)
    (hk : runtime.run s k = some t) : t.asked f = s.asked f := by
  refine hcode.invariant (J := fun u => u.asked f = s.asked f)
    (fun u a v hu hcode hstep => ?_) hk rfl
  refine (State.asked_consumed hstep (hu ▸ hf) fun hchecks => ?_).trans hu
  exact hcode.1 (State.checksNow_stack hchecks hstep)

/-- The tick that finds the future ready reads it and calls the user's function. -/
theorem reads_ready {tm : TimerId} {f : FutureId} {checkPeriod : Milliseconds} {value i : Nat}
    {moves : RequesterMoves} {s t : State} {idle : Prop}
    (hwaits : idle → Awaits tm f checkPeriod s) (hreg : Registered s)
    (hready : s.futures f = .ready value)
    (hfires : s.fires tm (.deliver i moves) = some (futureWait tm f checkPeriod))
    (hstep : s.step (.deliver i moves) = some t) :
    InTick idle tm f checkPeriod t ∧ (t.asked f).2 = .consumed ∧
      t.gets f = s.gets f ++ [value] := by
  obtain ⟨op, hop, hexpired⟩ := Option.bind_eq_some_iff.mp hfires
  obtain ⟨handler, status, delay⟩ := op
  obtain ⟨rfl, hon⟩ : status = .done none ∧
      (AsyncOp.mk handler status delay).wait tm = some (futureWait tm f checkPeriod) := by
    simpa [AsyncOp.expired] using hexpired
  obtain ⟨rfl, rfl⟩ :
      handler = .periodic tm checkPeriod (.checkFuture f) ∧ delay = checkPeriod := by
    unfold AsyncOp.wait at hon
    split at hon
    · simpa [futureWait] using hon
    · cases hon
  obtain ⟨u, hd⟩ : ∃ u, Delivers s i (.periodic tm delay (.checkFuture f)) none u :=
    ⟨_, State.step_deliver hstep, ⟨_, hop⟩, rfl⟩
  have hready : u.futures f = .ready value := by
    rw [hd.rest]
    exact hready
  have ht := hd.handled hstep
  simp only [State.handle, State.runTask, State.emit_futures, hready, Option.isSome_none,
    Bool.false_eq_true, if_false] at ht
  have hstack : t.stack = [.user (.futureCallback f value)] ++
      [.afterFuture tm, .afterPeriodic tm delay (.checkFuture f)] := by
    rw [ht]
    simp [hd.stack_eq]
  have hrearms : (t.timing tm).rearms = [futureWait tm f delay] := by
    show t.stack.filterMap (Frame.rearm tm) = _
    rw [hstack, List.singleton_append, List.filterMap_cons_none rfl, List.filterMap_cons_none rfl]
    simp [Frame.rearm, futureWait]
  have hnone : idle → (t.timing tm).waits = [] := by
    intro hidle
    have hown := ((hwaits hidle).step hreg rfl hstep).own
    unfold Timing.all at hown
    rw [hrearms] at hown
    have hlength := hown.length_le
    rw [List.length_append] at hlength
    exact List.length_eq_zero_iff.mp (by simpa using hlength)
  have htrace : t.trace = u.trace ++ [.futureQueried f, .futureGot f value] := by
    rw [ht]
    simp
  refine ⟨⟨⟨_, _, hstack, by simp [Frame.isInner], Or.inl rfl⟩, hnone⟩, ?_, ?_⟩
  · rw [ht]
    exact Function.update_self ..
  · rw [State.gets_eq, State.gets_eq, hd.asked_append _ htrace (by simp [Event.future]),
      List.filterMap_append]
    simp

/-- **`waitFuture` does not settle.** The tick that finds the future ready leaves the future alone,
the timer without a wait and the queue resumed only if an exception ends the tick at a moment at
which the queue is not paused; where the timer was idle before the call, it then does. -/
theorem waitFuture_settles {tm : TimerId} {f : FutureId} {checkPeriod : Milliseconds}
    {value i : Nat} {moves : RequesterMoves} {s s' s₀ s₁ s₂ : State} {l k : List Label}
    (hs : runtime.Reachable s)
    (hcall : runtime.step s (.command (.waitFuture tm f checkPeriod)) = some s')
    (hl : runtime.EachStep (fun s a _ => s.uses tm f a = false) s' l)
    (hwait : runtime.run s' l = some s₀) (hready : s₀.futures f = .ready value)
    (hfires : s₀.fires tm (.deliver i moves) = some (futureWait tm f checkPeriod))
    (htick : runtime.step s₀ (.deliver i moves) = some s₁)
    (hcode : runtime.EachStep (fun s a _ => s.stack ≠ [] ∧ s.uses tm f a = false) s₁ k)
    (hk : runtime.run s₁ k = some s₂) (hend : s₂.stack = []) :
    (Settles tm f value s₁ s₂ → EndsInException tm s₁ k) ∧
      (Idle tm f s → EndsInException tm s₁ k → Settles tm f value s₁ s₂) := by
  have hreg := registered_of_reachable (hs.step hcall)
  have hreg₀ : Registered s₀ := registered_of_reachable ((hs.step hcall).run hwait)
  have hawaits : Idle tm f s → Awaits tm f checkPeriod s₀ := fun hidle =>
    ((Awaits.call (registered_of_reachable hs) hidle hcall).run hreg hl hwait).2
  have htick' : s₀.step (.deliver i moves) = some s₁ := htick
  obtain ⟨hin, hconsumed, hgets⟩ := reads_ready hawaits hreg₀ hready hfires htick'
  have hreg₁ := hreg₀.step (Step.of_step htick')
  have hunread : s₀.gets f = [] := by
    refine futures_read ((hs.step hcall).run hwait) ?_
    rw [hready]
    nofun
  rw [hunread, List.nil_append] at hgets
  have hasked := asked_tick hconsumed hcode hk
  rcases hin.run hreg₁ hcode hk hend with ⟨k', moves', rfl, hwaits⟩ |
    ⟨k', what, catcher, s₃, rfl, hs₃, hwaits, hresumed⟩
  · constructor
    · intro hsettles
      rw [(hsettles.further [] s₂ trivial rfl).2.2] at hwaits
      cases hwaits
    · rintro - ⟨k'', what, catcher, s₃, heq, -, -⟩
      obtain ⟨-, hlast⟩ := List.append_inj' heq rfl
      cases hlast
  · constructor
    · intro hsettles
      exact ⟨k', what, catcher, s₃, rfl, hs₃, hresumed ▸ hsettles.resumed⟩
    · rintro hidle ⟨k'', what', catcher', s₃', heq, hs₃', hunpaused⟩
      obtain ⟨rfl, -⟩ := List.append_inj' heq rfl
      obtain rfl := Option.some.inj (hs₃.symm.trans hs₃')
      -- nothing is left of the wait, and no other timer waits for the future
      have hcode' : runtime.EachStep (fun s a _ => s.uses tm f a = false) s₁ _ :=
        hcode.mono fun _ _ _ h => h.2
      have hawaits₁ := (hawaits hidle).step hreg₀ rfl htick'
      obtain ⟨hreg₂, hawaits₂⟩ := hawaits₁.run hreg₁ hcode' hk
      have hown : (s₂.timing tm).all = [] := by
        unfold Timing.all
        rw [hwaits hidle]
        simp [State.timing, hend]
      have hforgotten : Forgotten tm f (s₁.asked f) s₂ := by
        refine ⟨hreg₂, hown, fun u w hw => ?_, hasked⟩
        by_cases hu : u = tm
        · rw [hu, hown] at hw
          cases hw
        · exact hawaits₂.others u hu w hw
      refine ⟨fun l' u hl' hu => ?_, hresumed.trans hunpaused⟩
      have hfinal := hl'.invariant (J := Forgotten tm f (s₁.asked f))
        (fun _ _ _ h huses hstep => h.step hconsumed huses hstep) hu hforgotten
      refine ⟨?_, ?_, (List.append_eq_nil_iff.mp hfinal.own).1⟩
      · rw [State.gets_eq, hfinal.asked, ← State.gets_eq, hgets]
      · rw [State.queries_eq, hfinal.asked, ← State.queries_eq]

/-- A timer, not of a request, waits for a future; the tick after the one that found it pending
finds it ready. -/
def readyRun : List Label :=
  [.outside, .command (.makeTimer none), .command (.waitFuture 0 0 10), .ret none, .finish 0 none,
    .deliver 0 {}, .resume {}, .futureReady 0 5, .finish 0 none]

theorem waitFuture_settles_thrown : ∃ s₀ s₁ s₂, runtime.run runtime.init readyRun = some s₀ ∧
    runtime.step s₀ (.deliver 0 {}) = some s₁ ∧ runtime.run s₁ [.throw none] = some s₂ ∧
      Settles 0 0 5 s₁ s₂ := by
  refine ⟨_, _, _, rfl, rfl, rfl, ?_⟩
  refine (waitFuture_settles (l := readyRun.drop 3) (k := [.throw none]) ⟨readyRun.take 2, rfl⟩
    (rfl : runtime.step _ (.command (.waitFuture 0 0 10)) = some _) ?_ rfl rfl ?_
    (rfl : runtime.step _ (.deliver 0 {}) = some _) ?_ rfl rfl).2 ?_ ?_
  · decide
  · decide
  · decide
  · decide
  · exact ⟨[], none, none, _, rfl, rfl, by decide⟩

/-- The user's function returns: the timer is armed again, and its next tick queries the future
that has been read. -/
theorem waitFuture_returned : ∃ s₀ s₁ s₂ t, runtime.run runtime.init readyRun = some s₀ ∧
    runtime.step s₀ (.deliver 0 {}) = some s₁ ∧
    runtime.run s₁ [.ret none, .resume {}, .resume {}] = some s₂ ∧ s₂.stack = [] ∧
    (s₂.timing 0).waits = [futureWait 0 0 10] ∧ ¬ Settles 0 0 5 s₁ s₂ ∧
    runtime.run s₂ [.finish 0 none, .deliver 0 {}] = some t ∧ s₁.queries 0 < t.queries 0 ∧
      .futureError 0 ∈ t.trace := by
  refine ⟨_, _, _, _, rfl, rfl, rfl, rfl, by decide, fun hsettles => ?_, rfl, by decide, by decide⟩
  have hnone := (hsettles.further [] _ trivial rfl).2.2
  revert hnone
  decide

end Asyncgi
