import Asyncgi.Timer.Step
import Asyncgi.Transition.Ghost

/-!
# The orders given to a timer

`TimerService` keeps neither a generation number nor a flag: what was asked of it last is only in
the waits that asio holds, and the handlers of these waits act on the timer once more after the
callback. The orders given to a timer are kept here as a ghost of the runtime.

## Main definitions

* `Orders`: the last order given to a timer, and whether its one-shot wait has fired
* `InTime`: an order finds no expired wait, and a tick arms the timer again only by its last order
* `Undisturbed`: the end of a handler does not undo what the callback ordered

## Main results

* `callback_of_last_order`: the callbacks that are called are those of the last order
* `armed_once`: an armed timer has exactly one wait, that of its last order
-/

namespace Asyncgi

/-- What has been asked of a timer. -/
structure Orders where
  last : Option Order := none
  /-- The wait of the last order, a one-shot wait, has been delivered. -/
  fired : Bool := false
  deriving DecidableEq, Repr

namespace Orders

variable (tm : TimerId) (g : Orders)

/-- The wait of the last order. -/
def lastWait : Option Wait := g.last.bind (Order.wait tm)

/-- The wait that the timer owes to the last order. -/
def armed : Option Wait := if g.fired then none else g.lastWait tm

/-- A wait of the timer is delivered. -/
def fire (w : Wait) : Orders :=
  if g.lastWait tm = some w ∧ w.1.rearm = none then { g with fired := true } else g

/-- The orders given after a step. -/
def follow (s : State) (l : Label) (g : Orders) : Orders :=
  match s.orderTo tm l with
  | some o => { last := some o }
  | none => (s.fires tm l).elim g (g.fire tm)

end Orders

/-- The runtime beside the orders given to the timer `tm`. -/
def timerRuntime (tm : TimerId) : Machine (State × Orders) Label :=
  runtime.withGhost (Orders.follow tm) {}

/-- The wait that the timer gets again at the end of its periodic handler. -/
def State.tickEnds (s : State) (tm : TimerId) : Label → Option Wait
  | .resume _ => s.stack.head?.bind (Frame.rearm tm)
  | _ => none

/-- The one-shot handler of the timer ends. -/
def State.shotEnds (s : State) (tm : TimerId) : Label → Bool
  | .resume _ => s.stack.head? == some (.afterOneShot tm)
  | _ => false

/-- A delivered wait, and its callback, is that of the last order. -/
def Silent (tm : TimerId) (p : State × Orders) (l : Label) : Prop :=
  ∀ w ∈ p.1.fires tm l, p.2.lastWait tm = some w

/-- An order finds no expired wait of the timer but the one that is being delivered, and the end of
a tick arms the timer again with the wait of the last order. -/
def InTime (tm : TimerId) (p : State × Orders) (l : Label) : Prop :=
  ((p.1.orderTo tm l).isSome → (p.1.timing tm).expired = (p.1.fires tm l).toList) ∧
    ∀ w ∈ p.1.tickEnds tm l, p.2.lastWait tm = some w

instance (tm : TimerId) (p : State × Orders) (l : Label) : Decidable (Silent tm p l) := by
  unfold Silent
  infer_instance

instance (tm : TimerId) (p : State × Orders) (l : Label) : Decidable (InTime tm p l) := by
  unfold InTime
  infer_instance

/-- The end of a handler leaves the timer what it is armed with: the one-shot handler finds no
pending wait to cancel; the periodic handler finds no wait, or arms the timer as it was ordered; no
exception leaves the handler before. A new order finds no expired wait. -/
structure Undisturbed (tm : TimerId) (p : State × Orders) (l : Label) : Prop where
  order : ∀ o ∈ p.1.orderTo tm l, o ≠ .stop → (p.1.timing tm).expired = []
  shot : p.1.shotEnds tm l → p.2.armed tm ≠ none → (p.1.timing tm).waits = (p.1.timing tm).expired
  tick : ∀ w ∈ p.1.tickEnds tm l, p.2.armed tm ≠ none → (p.1.timing tm).waits = [] ∨
    (p.1.timing tm).expired = [] ∧ p.2.armed tm = some w
  throw : p.1.unwinds l → p.2.armed tm ≠ none → (p.1.timing tm).rearms ≠ [] →
    (p.1.timing tm).waits ≠ []
  consumed : p.1.usesConsumed l → ∀ w ∈ p.1.fires tm l, w.1.rearm ≠ none → p.2.armed tm = none

instance (tm : TimerId) (p : State × Orders) (l : Label) : Decidable (Undisturbed tm p l) :=
  decidable_of_iff
    ((∀ o ∈ p.1.orderTo tm l, o ≠ .stop → (p.1.timing tm).expired = []) ∧
      (p.1.shotEnds tm l → p.2.armed tm ≠ none →
        (p.1.timing tm).waits = (p.1.timing tm).expired) ∧
      (∀ w ∈ p.1.tickEnds tm l, p.2.armed tm ≠ none → (p.1.timing tm).waits = [] ∨
        (p.1.timing tm).expired = [] ∧ p.2.armed tm = some w) ∧
      (p.1.unwinds l → p.2.armed tm ≠ none → (p.1.timing tm).rearms ≠ [] →
        (p.1.timing tm).waits ≠ []) ∧
      (p.1.usesConsumed l → ∀ w ∈ p.1.fires tm l, w.1.rearm ≠ none → p.2.armed tm = none))
    ⟨fun ⟨ho, hs, ht, hu, hc⟩ => ⟨ho, hs, ht, hu, hc⟩, fun h => ⟨h.1, h.2, h.3, h.4, h.5⟩⟩

/-! ## How the orders follow a step -/

section Follow

variable {tm : TimerId} {s : State} {l : Label} {g : Orders} {w v : Wait}

theorem Orders.follow_order {o : Order} (ho : s.orderTo tm l = some o) :
    g.follow tm s l = { last := some o } := by
  rw [Orders.follow, ho]

theorem Orders.follow_quiet (ho : s.orderTo tm l = none) (hfires : s.fires tm l = none) :
    g.follow tm s l = g := by
  rw [Orders.follow, ho, hfires]
  rfl

theorem Orders.follow_fires (ho : s.orderTo tm l = none) (hfires : s.fires tm l = some w) :
    g.follow tm s l = g.fire tm w := by
  rw [Orders.follow, ho, hfires]
  rfl

@[simp] theorem Orders.fire_lastWait : (g.fire tm w).lastWait tm = g.lastWait tm := by
  unfold Orders.fire
  split <;> rfl

/-- What is still owed after a delivery was owed before, and is not the one-shot wait that was
delivered. -/
theorem Orders.armed_fire (h : (g.fire tm w).armed tm = some v) :
    g.armed tm = some v ∧ (v = w → w.1.rearm ≠ none) := by
  unfold Orders.fire at h
  split at h
  · simp [Orders.armed] at h
  next hfire =>
    refine ⟨h, ?_⟩
    rintro rfl hshot
    apply hfire
    refine ⟨?_, hshot⟩
    unfold Orders.armed at h
    split at h
    · cases h
    · exact h

theorem Orders.armed_last (h : g.armed tm = some w) : g.lastWait tm = some w := by
  unfold Orders.armed at h
  split at h
  · cases h
  · exact h

/-- The wait of a periodic order is armed again as it is. -/
theorem Orders.rearm_lastWait (h : g.lastWait tm = some w) (hw : w.1.rearm ≠ none) :
    w.1.rearm = some w := by
  obtain ⟨o, -, ho⟩ := Option.bind_eq_some_iff.mp h
  cases o <;> simp only [Order.wait, Option.some.injEq, reduceCtorEq] at ho <;> subst ho
  case start => exact absurd rfl hw
  case startPeriodic => rfl

end Follow

/-! ## A callback is that of the last order -/

/-- The waits of the timer are those of its last order. -/
def Heard (tm : TimerId) (p : State × Orders) : Prop :=
  ∀ w ∈ (p.1.timing tm).waits, p.2.lastWait tm = some w

namespace Heard

variable {tm : TimerId} {s t : State} {g : Orders} {l : Label}

theorem silent (h : Heard tm (s, g)) : Silent tm (s, g) l := fun w hw =>
  h w (State.fires_mem hw)

theorem step (h : Heard tm (s, g)) (hguard : InTime tm (s, g) l)
    (hstep : TimerStep tm s l (s.timing tm) (t.timing tm)) : Heard tm (t, g.follow tm s l) := by
  intro w hw
  have hexpired : ∀ w ∈ (s.timing tm).expired, g.lastWait tm = some w := fun w hw =>
    h w ((s.expired_sublist tm).subset hw)
  cases hstep with
  | quiet horder hfires hwaits | unwound _ horder hfires hwaits =>
    rw [Orders.follow_quiet horder hfires]
    exact h w (hwaits ▸ hw)
  | @ordered o horder hfires hwaits =>
    rw [Orders.follow_order horder]
    have hnone : (s.timing tm).expired = [] := by
      have := hguard.1 (by simp [horder])
      rwa [hfires] at this
    have hw : w ∈ (t.timing tm).waits := hw
    rw [hwaits, hnone, List.nil_append] at hw
    simpa [Orders.lastWait] using hw
  | fired horder hfires hwaits | threw _ horder hfires hwaits =>
    rw [Orders.follow_fires horder hfires]
    simpa using h w (hwaits.subset (List.mem_cons_of_mem _ hw))
  | firedStop horder hfires hwaits =>
    have hall := hguard.1 (by simp [horder])
    rw [hfires] at hall
    have hlength := hwaits.length_eq
    rw [hall] at hlength
    have hnone : (t.timing tm).waits = [] := by simpa using hlength
    have hw : w ∈ (t.timing tm).waits := hw
    rw [hnone] at hw
    cases hw
  | stopped _ _ horder hfires hwaits | destroyed horder hfires hwaits =>
    rw [Orders.follow_quiet horder hfires]
    exact hexpired w (hwaits ▸ hw)
  | @rearmed moves time task fs hl hstack horder hfires hwaits =>
    rw [Orders.follow_quiet horder hfires]
    have hw : w ∈ (t.timing tm).waits := hw
    rw [hwaits, List.mem_append, List.mem_singleton] at hw
    rcases hw with hw | rfl
    · exact hexpired w hw
    · -- a handler that arms its timer again is that of the last order
      refine hguard.2 _ ?_
      simp [hl, State.tickEnds, hstack, Frame.rearm]

end Heard

/-- **A stopped or superseded timer is silent.** In the runs in which an order finds no expired
wait of the timer, and a periodic callback does not give its own timer another order, every
callback that is called is that of the last order. -/
theorem callback_of_last_order (tm : TimerId) {l : List Label}
    (hguard : (timerRuntime tm).EachStep (fun p a _ => InTime tm p a) (timerRuntime tm).init l) :
    (timerRuntime tm).EachStep (fun p a _ => Silent tm p a) (timerRuntime tm).init l := by
  refine hguard.law (J := fun p => Registered p.1 ∧ Heard tm p) ?_ ⟨Registered.init, nofun⟩
  rintro ⟨s, g⟩ a ⟨t, g'⟩ ⟨hreg, hheard⟩ hguard hstep
  obtain ⟨hstep, hfollow⟩ := Machine.withGhost_step_eq_some.mp hstep
  obtain rfl : g' = g.follow tm s a := hfollow
  exact ⟨⟨hreg.step (Step.of_step hstep), hheard.step hguard (TimerStep.of_step hreg hstep)⟩,
    hheard.silent⟩

/-- A pending wait is superseded, and the callback of the new order is called. -/
theorem callback_of_last_order_superseded :
    (timerRuntime 0).EachStep (fun p a _ => Silent 0 p a) (timerRuntime 0).init
      [.outside, .command (.makeTimer none), .command (.start 0 10 1),
        .command (.startPeriodic 0 20 2), .ret none, .deliver 0 {}, .finish 0 none, .deliver 0 {},
        .ret none, .resume {}] :=
  callback_of_last_order 0 (by decide)

/-- The timer is stopped after its wait has expired: the callback is called all the same. -/
theorem callback_after_stop : ∃ p, (timerRuntime 0).run (timerRuntime 0).init
      [.outside, .command (.makeTimer none), .command (.start 0 10 1), .finish 0 none,
        .command (.stop 0), .ret none] = some p ∧
    p.2.last = some .stop ∧ p.1.fires 0 (.deliver 0 {}) = some (.oneShot 0 (.user 1), 10) ∧
      ¬ Silent 0 p (.deliver 0 {}) ∧
        (p.1.step (.deliver 0 {})).any fun t => t.trace.getLast? == some (.callback 0 1) :=
  ⟨_, rfl, by decide, by decide, by decide, by decide⟩

/-! ## An armed timer has its wait -/

/-- A timer that exists and is armed has its wait, or is in a tick that will arm it again. -/
def Kept (tm : TimerId) (p : State × Orders) : Prop :=
  (p.1.timing tm).dead = false → ∀ w, p.2.armed tm = some w → (p.1.timing tm).waits = [w] ∨
    (p.1.timing tm).waits = [] ∧ (p.1.timing tm).rearms = [w]

namespace Kept

variable {tm : TimerId} {s t : State} {g : Orders} {l : Label}

/-- After the delivery of its wait, a timer that is still armed is in a tick. -/
theorem delivered (h : Kept tm (s, g)) {w v : Wait} (hdead : (s.timing tm).dead = false)
    (hv : (g.fire tm w).armed tm = some v) {ws : List Wait}
    (hperm : (w :: ws).Perm (s.timing tm).waits) :
    ws = [] ∧ v = w ∧ w.1.rearm = some w ∧ g.armed tm = some v := by
  obtain ⟨harmed, hperiodic⟩ := Orders.armed_fire hv
  rcases h hdead v harmed with hwaits | ⟨hwaits, -⟩
  · have hwaits : (s.timing tm).waits = [v] := hwaits
    rw [hwaits] at hperm
    have hsame : w :: ws = [v] := List.perm_singleton.mp hperm
    obtain ⟨rfl, rfl⟩ := List.cons_eq_cons.mp hsame
    exact ⟨rfl, rfl, Orders.rearm_lastWait (Orders.armed_last harmed) (hperiodic rfl), harmed⟩
  · have hwaits : (s.timing tm).waits = [] := hwaits
    rw [hwaits] at hperm
    cases hperm.eq_nil

theorem step (h : Kept tm (s, g)) (hguard : Undisturbed tm (s, g) l)
    (hstep : TimerStep tm s l (s.timing tm) (t.timing tm)) : Kept tm (t, g.follow tm s l) := by
  intro hdead v hv
  have hdead : (t.timing tm).dead = false := hdead
  have hv : (g.follow tm s l).armed tm = some v := hv
  show (t.timing tm).waits = [v] ∨ (t.timing tm).waits = [] ∧ (t.timing tm).rearms = [v]
  cases hstep with
  | quiet horder hfires hwaits hrearms hsame =>
    rw [Orders.follow_quiet horder hfires] at hv
    rw [hwaits, hrearms]
    exact h (hsame ▸ hdead) v hv
  | unwound hl horder hfires hwaits hrearms hsame =>
    rw [Orders.follow_quiet horder hfires] at hv
    rw [hwaits]
    rcases h (hsame ▸ hdead) v hv with hone | ⟨hnone, htick⟩
    · exact Or.inl hone
    · -- the exception would leave the tick that is to arm the timer again
      exact absurd hnone (hguard.throw hl (by simp [hv]) (by simp [htick]))
  | @ordered o horder hfires hwaits hrearms hsame =>
    rw [Orders.follow_order horder] at hv
    have hwait : o.wait tm = some v := by simpa [Orders.armed, Orders.lastWait] using hv
    have hstop : o ≠ .stop := by
      rintro rfl
      cases hwait
    left
    rw [hwaits, hguard.order o horder hstop, hwait]
    rfl
  | @fired w horder hfires hwaits _ hrearms hsame =>
    rw [Orders.follow_fires horder hfires] at hv
    obtain ⟨hnone, rfl, hrearm, -⟩ := h.delivered (hsame ▸ hdead) hv hwaits
    right
    rw [hrearms, hrearm]
    exact ⟨hnone, rfl⟩
  | @threw w hl horder hfires hwaits _ hsame =>
    rw [Orders.follow_fires horder hfires] at hv
    obtain ⟨-, rfl, hrearm, harmed⟩ := h.delivered (hsame ▸ hdead) hv hwaits
    have hidle := hguard.consumed hl _ hfires (by simp [hrearm])
    exact absurd (harmed.symm.trans hidle) nofun
  | firedStop horder =>
    rw [Orders.follow_order horder] at hv
    cases hv
  | stopped hl hstack horder hfires hwaits hrearms hsame =>
    rw [Orders.follow_quiet horder hfires] at hv
    have hshot : s.shotEnds tm l := by simp [hl, State.shotEnds, hstack]
    have hkept := hguard.shot hshot (by simp [hv])
    rw [hwaits, ← hkept, hrearms]
    exact h (hsame ▸ hdead) v hv
  | @rearmed moves time task fs hl hstack horder hfires hwaits hrearms hsame =>
    rw [Orders.follow_quiet horder hfires] at hv
    have htick : s.tickEnds tm l = some (.periodic tm time task, time) := by
      simp [hl, State.tickEnds, hstack, Frame.rearm]
    left
    rw [hwaits]
    rcases hguard.tick _ htick (by simp [hv]) with hnone | ⟨hexpired, hsame'⟩
    · have hnone : (s.timing tm).waits = [] := hnone
      have hexpired : (s.timing tm).expired = [] :=
        List.sublist_nil.mp (hnone ▸ s.expired_sublist tm)
      rcases h (hsame ▸ hdead) v hv with hone | ⟨-, hrearm⟩
      · have hone : (s.timing tm).waits = [v] := hone
        rw [hone] at hnone
        cases hnone
      · have hrearm : (s.timing tm).rearms = [v] := hrearm
        rw [hrearm] at hrearms
        rw [hexpired, (List.cons_eq_cons.mp hrearms).1]
        rfl
    · have hexpired : (s.timing tm).expired = [] := hexpired
      have hsame' : g.armed tm = _ := hsame'
      rw [hexpired, Option.some.inj (hv.symm.trans hsame')]
      rfl
  | destroyed _ _ _ _ hgone =>
    rw [hgone] at hdead
    cases hdead

end Kept

/-- **An armed timer is not lost.** In the runs in which the end of a handler does not undo what the
callback ordered, a timer that exists and is armed, once control is back in the event loop, has
exactly one wait, and it is the one of its last order. -/
theorem armed_once {tm : TimerId} {l : List Label} {p : State × Orders}
    (hguard : (timerRuntime tm).EachStep (fun p a _ => Undisturbed tm p a) (timerRuntime tm).init l)
    (hl : (timerRuntime tm).run (timerRuntime tm).init l = some p) (hloop : p.1.stack = [])
    (halive : p.1.dead (.timer tm) = false) {w : Wait} (hw : p.2.armed tm = some w) :
    (p.1.timing tm).waits = [w] := by
  have hinv := hguard.invariant (J := fun p => Registered p.1 ∧ Kept tm p) ?_ hl
    ⟨Registered.init, nofun⟩
  · rcases hinv.2 halive w hw with hone | ⟨-, htick⟩
    · exact hone
    · simp [State.timing, hloop] at htick
  · rintro ⟨s, g⟩ a ⟨t, g'⟩ ⟨hreg, hkept⟩ hguard hstep
    obtain ⟨hstep, hfollow⟩ := Machine.withGhost_step_eq_some.mp hstep
    obtain rfl : g' = g.follow tm s a := hfollow
    exact ⟨hreg.step (Step.of_step hstep), hkept.step hguard (TimerStep.of_step hreg hstep)⟩

/-- A periodic timer ticks. -/
def tickingRun : List Label :=
  [.outside, .command (.makeTimer none), .command (.startPeriodic 0 10 1), .ret none,
    .finish 0 none, .deliver 0 {}, .ret none, .resume {}]

theorem armed_once_ticking : ∃ p, (timerRuntime 0).run (timerRuntime 0).init tickingRun = some p ∧
    (p.1.timing 0).waits = [(.periodic 0 10 (.user 1), 10)] :=
  ⟨_, rfl, armed_once (l := tickingRun) (by decide) rfl (by decide) (by decide) (by decide)⟩

/-- A one-shot callback starts its timer again: the handler cancels the new wait. -/
theorem rearmed_in_callback : ∃ p, (timerRuntime 0).run (timerRuntime 0).init
      [.outside, .command (.makeTimer none), .command (.start 0 10 1), .ret none, .finish 0 none,
        .deliver 0 {}, .command (.start 0 20 2), .ret none, .resume {}] = some p ∧
    p.1.stack = [] ∧ p.1.dead (.timer 0) = false ∧
      p.2.armed 0 = some (.oneShot 0 (.user 2), 20) ∧ (p.1.timing 0).waits = [] :=
  ⟨_, rfl, by decide, by decide, by decide, by decide⟩

end Asyncgi
