import Asyncgi.Service.Threads
import Asyncgi.Transition.Measure

/-!
# Stopping `IO`

`IOService::stop` only marks the contexts. What is left to the threads then is to return from the
handlers that they run, to leave their loops, and to be joined; each move of theirs uses up some of
it, and until `IOService::run` has returned one of them can move. The signals that stop the program
are waited for until one has come.

## Main definitions

* `IOService.work`: what is left to the threads of a service that is stopped
* `IOService.Label.isProgress`: the moves of the threads that use it up

## Main results

* `IOService.stop_returns`: where all contexts are stopped, the first call of `IOService::run`
  returns
* `IOService.signal_awaited`: a signal is waited for until one has stopped the service
-/

namespace Asyncgi

namespace IOService

variable {s t : IOService} {a : Label} {u : ThreadId} {c : ContextId} {loop : EventLoop}

/-! ## What is left to do -/

/-- A handler throws. -/
def Label.throws : Label → Bool
  | throw _ => true
  | _ => false

/-- The moves of a thread towards its end. -/
def Label.isProgress : Label → Bool
  | spawn | goOn _ | finish _ | leave _ | join => true
  | _ => false

/-- `IOService::stop` is called. -/
def Label.callsStop : Label → Bool
  | callStop _ | stop => true
  | _ => false

/-- The contexts that a call of `stop` is to stop, and its return. -/
def stopWork (n k : Nat) : Nat := n - k + 1

theorem stopWork_of_lt {n k : Nat} (h : k < n) : stopWork n k = stopWork n (k + 1) + 1 := by
  unfold stopWork
  omega

theorem stopWork_of_le {n k : Nat} (h : n ≤ k) : stopWork n k = 1 := by
  unfold stopWork
  omega

/-- The moves of a loop that it takes to leave it, over `n` contexts. -/
def loopWork (n : Nat) : EventLoop → Nat
  | .waiting => 1
  | .handler stopping => stopping.elim 0 (stopWork n) + 2

def workerWork (n : Nat) (w : Worker) : Nat := w.loop.elim 0 (loopWork n)

/-- What is left to the caller of `IOService::run`, with `threads` threads in the pool. -/
def callerWork (n threads : Nat) : RunCaller → Nat
  | .outside => 0
  -- each thread that is still to be made is to run, to leave its loop and to be joined
  | .spawning i => 3 * stopWork n i + threads
  | .running loop => loopWork n loop + threads + 1
  | .joining j => threads - j + 1

/-- The moves that are left to the threads of a service whose contexts are stopped. -/
def work (s : IOService) : Nat :=
  callerWork s.poolSize s.threadPool.length s.caller +
    (s.threadPool.map (workerWork s.poolSize)).sum +
    (s.stops.map (stopWork s.poolSize)).sum

theorem sum_map_modify {α : Type*} {f : α → α} {g : α → Nat} {l : List α} {i : Nat} {b : α}
    (hb : l[i]? = some b) : ((l.modify i f).map g).sum + g b = (l.map g).sum + g (f b) := by
  induction l generalizing i with
  | nil => cases hb
  | cons d l ih =>
    cases i with
    | zero =>
      obtain rfl := Option.some.inj hb
      rw [List.modify_zero_cons, List.map_cons, List.sum_cons, List.map_cons, List.sum_cons]
      omega
    | succ i =>
      have hrest := ih hb
      rw [List.modify_succ_cons, List.map_cons, List.sum_cons, List.map_cons, List.sum_cons]
      omega

theorem sum_map_eraseIdx {α : Type*} {g : α → Nat} {l : List α} {i : Nat} {b : α}
    (hb : l[i]? = some b) : ((l.eraseIdx i).map g).sum + g b = (l.map g).sum := by
  induction l generalizing i with
  | nil => cases hb
  | cons d l ih =>
    cases i with
    | zero =>
      obtain rfl := Option.some.inj hb
      rw [List.eraseIdx_cons_zero, List.map_cons, List.sum_cons, Nat.add_comm]
    | succ i =>
      have hrest := ih hb
      rw [List.eraseIdx_cons_succ, List.map_cons, List.sum_cons, List.map_cons, List.sum_cons]
      omega

/-- The work of a thread whose loop changes. -/
theorem work_setWorker {i : Nat} {w : Worker} (hw : s.threadPool[i]? = some w)
    (x : Option EventLoop) : (s.setWorker i x).work + workerWork s.poolSize w =
      s.work + x.elim 0 (loopWork s.poolSize) := by
  have hsum := sum_map_modify (f := fun w => { w with loop := x }) (g := workerWork s.poolSize) hw
  have hwork : workerWork s.poolSize { w with loop := x } = x.elim 0 (loopWork s.poolSize) := rfl
  simp only [work, setWorker, List.length_modify]
  omega

theorem work_setLoop (hu : s.loopOf u = some (c, loop)) (loop' : EventLoop) :
    (s.setLoop u loop').work + loopWork s.poolSize loop =
      s.work + loopWork s.poolSize loop' := by
  cases u with
  | caller =>
    obtain ⟨rfl, hcaller⟩ := loopOf_caller.mp hu
    simp only [work, setLoop, hcaller, callerWork]
    omega
  | worker i =>
    obtain ⟨w, hw, rfl, hloop⟩ := loopOf_worker.mp hu
    have hwork := work_setWorker hw (some loop')
    rw [workerWork, hloop] at hwork
    exact hwork

theorem work_leaveLoop (hu : s.loopOf u = some (c, .waiting)) :
    (s.leaveLoop u).work + 1 = s.work := by
  cases u with
  | caller =>
    obtain ⟨rfl, hcaller⟩ := loopOf_caller.mp hu
    simp only [work, leaveLoop, hcaller, callerWork, loopWork]
    omega
  | worker i =>
    obtain ⟨w, hw, rfl, hloop⟩ := loopOf_worker.mp hu
    have hwork := work_setWorker hw none
    rw [workerWork, hloop] at hwork
    exact hwork

/-- A call of `stop` goes on. -/
theorem work_stopFrom {call : StopCall} {k : ContextId} (hk : s.stopAt call = some k) :
    (s.stopFrom call k).work + 1 = s.work := by
  have hstopped : ∀ x,
      (setStop { s with stopped := Function.update s.stopped k true } call x).work =
        (s.setStop call x).work := by
    intro x
    rcases call with (_ | i) | i
    · rfl
    · rfl
    · cases x <;> rfl
  have hcall : ∀ x, (s.setStop call x).work + stopWork s.poolSize k =
      s.work + x.elim 0 (stopWork s.poolSize) := by
    intro x
    cases call with
    | inHandler u =>
      simp only [stopAt] at hk
      split at hk
      next c stopping hloop =>
        subst hk
        have hwork := work_setLoop hloop (.handler x)
        simp only [setStop, loopWork, Option.elim_some] at hwork ⊢
        omega
      next => cases hk
    | outside i =>
      have hk : s.stops[i]? = some k := hk
      have hwith : ∀ l, work { s with stops := l } =
          callerWork s.poolSize s.threadPool.length s.caller +
            (s.threadPool.map (workerWork s.poolSize)).sum +
            (l.map (stopWork s.poolSize)).sum := fun _ => rfl
      have hwork : s.work = _ := hwith s.stops
      cases x with
      | none =>
        have hsum := sum_map_eraseIdx (g := stopWork s.poolSize) hk
        have hset : (s.setStop (.outside i) none).work = _ := hwith (s.stops.eraseIdx i)
        rw [hset, Option.elim_none]
        omega
      | some b =>
        have hsum := sum_map_modify (f := fun _ => b) (g := stopWork s.poolSize) hk
        rw [← List.set_eq_modify] at hsum
        have hset : (s.setStop (.outside i) (some b)).work = _ := hwith (s.stops.set i b)
        rw [hset, Option.elim_some]
        omega
  unfold stopFrom
  split
  next hlt =>
    have hwork := hcall (some (k + 1))
    have hnext : stopWork s.poolSize k = stopWork s.poolSize (k + 1) + 1 := stopWork_of_lt hlt
    rw [Option.elim_some] at hwork
    rw [hstopped]
    omega
  next hge =>
    have hwork := hcall none
    have hlast : stopWork s.poolSize k = 1 := stopWork_of_le (Nat.le_of_not_lt hge)
    rw [Option.elim_none] at hwork
    omega

theorem work_join {j : Nat} {w : Worker} (hcaller : s.caller = .joining j)
    (hw : s.threadPool[j]? = some w) :
    work { s with
      threadPool := s.threadPool.set j { w with joinable := false }
      caller := .joining (j + 1) } + 1 = s.work := by
  have hlt : j < s.threadPool.length := (List.getElem?_eq_some_iff.mp hw).1
  have hsum := map_set_same (g := workerWork s.poolSize) (x := { w with joinable := false }) hw rfl
  simp only [work, hsum, hcaller, callerWork, List.length_set]
  omega

theorem work_leaveRun {j : Nat} (hcaller : s.caller = .joining j) (event : RunEvent) :
    (s.leaveRun event).work + 1 ≤ s.work := by
  simp only [work, leaveRun, hcaller, callerWork]
  omega

theorem work_spawn {i : ContextId} (hcaller : s.caller = .spawning i) :
    (s.spawn i).work + 1 ≤ s.work := by
  unfold IOService.spawn
  split
  next hlt =>
    have hnext : stopWork s.poolSize i = stopWork s.poolSize (i + 1) + 1 := stopWork_of_lt hlt
    simp only [work, hcaller, callerWork, List.length_append, List.length_singleton,
      List.map_append, List.map_singleton, List.sum_append, List.sum_singleton, workerWork,
      Option.elim_some, loopWork]
    omega
  next hge =>
    have hlast : stopWork s.poolSize i = 1 := stopWork_of_le (Nat.le_of_not_lt hge)
    simp only [work, hcaller, callerWork, loopWork]
    omega

/-- **A thread that moves on uses up work**, and only calls of `stop` make some. -/
theorem work_step (hsound : Sound s) (hpool : 0 < s.poolSize) (hstopped : s.Stopped)
    (hstep : Step s a t) (hrun : a ≠ .run) (hthrow : ∀ u, a ≠ .throw u) :
    t.work + (if a.isProgress then 1 else 0) ≤
      s.work + if a.callsStop then stopWork s.poolSize 0 else 0 := by
  -- a stopped context starts no handler
  have hlive : ∀ {u c loop}, s.loopOf u = some (c, loop) → s.stopped c = false → False := by
    intro u c loop hu hc
    rw [hstopped c (hsound.context_lt hpool hu)] at hc
    cases hc
  cases hstep with
  | run => exact absurd rfl hrun
  | throw => exact absurd rfl (hthrow _)
  | start hloop hc | signal hloop hc => exact (hlive hloop hc).elim
  | spawn hcaller =>
    have hwork := work_spawn hcaller
    simpa [Label.isProgress, Label.callsStop] using hwork
  | callStop hloop =>
    have hwork := work_setLoop hloop (.handler (some 0))
    simp only [loopWork, Option.elim_none, Option.elim_some, Label.isProgress, Label.callsStop,
      if_true, Bool.false_eq_true, if_false] at hwork ⊢
    omega
  | stop =>
    simp only [work, List.map_append, List.map_singleton, List.sum_append, List.sum_singleton,
      Label.isProgress, Label.callsStop, if_true, Bool.false_eq_true, if_false]
    omega
  | goOn hcall =>
    have hwork := work_stopFrom hcall
    simp only [Label.isProgress, Label.callsStop, if_true, Bool.false_eq_true, if_false]
    omega
  | finish hloop =>
    have hwork := work_setLoop hloop .waiting
    simp only [loopWork, Label.isProgress, Label.callsStop, if_true, Bool.false_eq_true, if_false]
      at hwork ⊢
    omega
  | leave hloop =>
    have hwork := work_leaveLoop hloop
    simp only [Label.isProgress, Label.callsStop, if_true, Bool.false_eq_true, if_false]
    omega
  | join hcaller hw =>
    have hwork := work_join hcaller hw
    simp only [Label.isProgress, Label.callsStop, if_true, Bool.false_eq_true, if_false]
    omega
  | joinThrows hcaller | joined hcaller =>
    simpa [Label.isProgress, Label.callsStop] using work_leaveRun hcaller _

/-! ## The return of `IOService::run` -/

/-- A thread that runs a context that is stopped can move on. -/
theorem exists_progress_of_loop (halive : s.terminated = false) (hu : s.loopOf u = some (c, loop))
    (hc : s.stopped c = true) : ∃ a, a.isProgress = true ∧ (s.step a).isSome = true := by
  cases loop with
  | waiting => exact ⟨.leave u, rfl, by simp [IOService.step, halive, hu, hc]⟩
  | handler stopping =>
    cases stopping with
    | none => exact ⟨.finish u, rfl, by simp [IOService.step, halive, hu]⟩
    | some k => exact ⟨.goOn (.inHandler u), rfl, by simp [IOService.step, halive, stopAt, hu]⟩

/-- As long as `IOService::run` has not been left, a thread can move on. -/
theorem exists_progress (hsound : Sound s) (hpool : 0 < s.poolSize) (hstopped : s.Stopped)
    (halive : s.terminated = false) (hin : s.caller ≠ .outside) :
    ∃ a, a.isProgress = true ∧ (s.step a).isSome = true := by
  cases hcaller : s.caller with
  | outside => exact absurd hcaller hin
  | spawning i => exact ⟨.spawn, rfl, by simp [IOService.step, halive, hcaller]⟩
  | running loop =>
    exact exists_progress_of_loop halive (loopOf_caller.mpr ⟨rfl, hcaller⟩) (hstopped 0 hpool)
  | joining j =>
    cases hw : s.threadPool[j]? with
    | none => exact ⟨.join, rfl, by simp [IOService.step, halive, hcaller, IOService.join, hw]⟩
    | some w =>
      cases hloop : w.loop with
      | none =>
        refine ⟨.join, rfl, ?_⟩
        simp only [IOService.step, halive, hcaller, IOService.join, hw, hloop]
        cases w.joinable <;> rfl
      | some loop =>
        have hu : s.loopOf (.worker j) = some (w.context, loop) :=
          loopOf_worker.mpr ⟨w, hw, rfl, hloop⟩
        exact exists_progress_of_loop halive hu (hstopped _ (hsound.context_lt hpool hu))

section Runs

variable {n : Nat} {k l : List Label}

/-- The service has not been left by an exception. -/
theorem terminated_run (hguard : ∀ a ∈ l, a.throws = false)
    (hl : (machine n).run s l = some t) (hs : s.terminated = false) : t.terminated = false := by
  induction l generalizing s with
  | nil =>
    obtain rfl := Option.some.inj hl
    exact hs
  | cons a l ih =>
    obtain ⟨v, hv, hl⟩ := (Machine.run_cons_eq_some _).mp hl
    obtain ⟨ha, hguard⟩ := List.forall_mem_cons.mp hguard
    refine ih hguard hl ?_
    have hkeeps := (Step.of_step hv).keeps fun i hi => by
      rw [hi] at ha
      cases ha
    exact hkeeps.terminated.trans hs

/-- An exception that leaves `IOService::run` is seen by its caller. -/
theorem threw_of_throw (hl : (machine n).run s l = some t) (hmem : .throw .caller ∈ l) :
    .threw ∈ t.trace := by
  induction l generalizing s with
  | nil => cases hmem
  | cons a l ih =>
    obtain ⟨v, hv, hrest⟩ := (Machine.run_cons_eq_some _).mp hl
    rcases List.mem_cons.mp hmem with rfl | hmem
    · have hstep : Step s (.throw .caller) v := Step.of_step hv
      have hthrew : .threw ∈ v.trace := by
        cases hstep
        exact List.mem_append_right _ (List.mem_singleton_self _)
      exact Machine.run_invariant (M := machine n) (I := fun s => .threw ∈ s.trace)
        (fun _ _ _ hs ht => (Step.of_step ht).trace_subset hs) hrest hthrew
    · exact ih hrest hmem

/-- The first call of `IOService::run` is on, or it has returned. -/
inductive FirstCall (s : IOService) : Prop
  | on (hturn : InTurn s) (hin : s.caller ≠ .outside) (htrace : s.trace = [.called])
  | returned (hout : s.caller = .outside) (htrace : s.trace = [.called, .returned])

/-- The first call of `IOService::run` has been made, and has not been left. -/
theorem FirstCall.of_called (hn : 0 < n) (hl : (machine n).run (machine n).init l = some s)
    (hcalled : s.trace = [.called]) : FirstCall s := by
  have hguard : ∀ a ∈ l, a ≠ .throw .caller := by
    rintro a ha rfl
    have hthrew := threw_of_throw hl ha
    rw [hcalled] at hthrew
    exact absurd hthrew (by decide)
  obtain ⟨-, hreturned | hturn⟩ := inTurn_run hn hguard hl
  · rw [hcalled] at hreturned
    exact absurd hreturned (by decide)
  · refine .on hturn (fun hout => ?_) hcalled
    rw [(hturn.outside hout).2] at hcalled
    cases hcalled

/-- The first call goes on until it returns. -/
theorem FirstCall.step (h : FirstCall s) (hsound : Sound s) (hstep : Step s a t) (hrun : a ≠ .run)
    (hthrow : ∀ u, a ≠ .throw u) : FirstCall t := by
  cases h with
  | on hturn hin htrace =>
    have hnext := hturn.step hsound hstep (hthrow .caller)
    have hon : t.caller ≠ .outside → t.trace = s.trace → FirstCall t := by
      intro hin' hsame
      have htrace' := hsame.trans htrace
      refine .on (hnext.resolve_left fun hreturned => ?_) hin' htrace'
      rw [htrace'] at hreturned
      exact absurd hreturned (by decide)
    cases hstep.pool with
    | same hsame => exact hon (fun hout => hin (hsame.outside.mp hout)) hsame.trace
    | run => exact absurd rfl hrun
    | made | allMade | join => exact hon nofun rfl
    | threw => exact absurd rfl (hthrow _)
    | joinThrows hcaller hw hjoinable =>
      rw [hturn.joinable_next hcaller hw] at hjoinable
      cases hjoinable
    | joined =>
      refine .returned rfl ?_
      rw [leaveRun, htrace]
      rfl
  | returned hout htrace =>
    cases hstep.pool with
    | same hsame => exact .returned (hsame.outside.mpr hout) (hsame.trace.trans htrace)
    | run => exact absurd rfl hrun
    | threw => exact absurd rfl (hthrow _)
    | made hcaller | allMade hcaller | join hcaller | joinThrows hcaller | joined hcaller =>
      rw [hout] at hcaller
      cases hcaller

/-- **`IOService::run` returns once the contexts are stopped.** In any run on from there, in its
first call, in which no handler throws, the threads make a bounded number of moves; and until
`IOService::run` has returned, one of them can make the next. -/
theorem stop_returns (hn : 0 < n) (hl : (machine n).run (machine n).init l = some s)
    (hcalled : s.trace = [.called]) (halive : s.terminated = false) (hstopped : s.Stopped)
    (hk : (machine n).run s k = some t) (hthrow : ∀ a ∈ k, a.throws = false) (hrun : .run ∉ k) :
    k.countP Label.isProgress ≤ s.work + (n + 1) * k.countP Label.callsStop ∧
      (t.trace = [.called, .returned] ∨
        ∃ a, a.isProgress = true ∧ ((machine n).step t a).isSome = true) := by
  obtain ⟨hsound, hsize⟩ := sound_run hn hl
  have hmeasure := Machine.run_measure (M := machine n)
    (I := fun s => (Sound s ∧ s.poolSize = n) ∧ s.Stopped ∧ FirstCall s)
    (A := fun a => a ≠ .run ∧ ∀ u, a ≠ .throw u) (μ := work)
    (fun a => if a.isProgress then 1 else 0) (fun a => if a.callsStop then n + 1 else 0) ?_ ?_
    ⟨⟨hsound, hsize⟩, hstopped, .of_called hn hl hcalled⟩ hk
  · obtain ⟨⟨⟨htsound, htsize⟩, htstopped, hfirst⟩, hwork⟩ := hmeasure
    constructor
    · rw [Machine.sum_map_ite, Machine.sum_map_ite, Nat.one_mul] at hwork
      omega
    · cases hfirst with
      | on _ hin _ =>
        have htalive := terminated_run hthrow hk halive
        exact Or.inr (exists_progress htsound (htsize ▸ hn) htstopped htalive hin)
      | returned _ htrace => exact Or.inl htrace
  · rintro s a t ⟨hrun, hthrow⟩ ⟨⟨hsound, rfl⟩, hstopped, hfirst⟩ ht
    have hstep := Step.of_step ht
    have hkeeps := hstep.keeps fun i => hthrow (.worker i)
    refine ⟨⟨⟨hsound.step hn hstep, hkeeps.poolSize⟩, fun c hc => ?_,
      hfirst.step hsound hstep hrun hthrow⟩, work_step hsound hn hstopped hstep hrun hthrow⟩
    exact hkeeps.stopped c (hstopped c (hkeeps.poolSize ▸ hc))
  · intro a ha
    refine ⟨fun heq => hrun (heq ▸ ha), ?_⟩
    rintro u rfl
    exact absurd (hthrow _ ha) nofun

/-- Both contexts of a service are stopped while both threads wait for handlers. -/
theorem stop_returns_waiting : ∃ s t, (machine 2).run (machine 2).init
      [.run, .spawn, .spawn, .stop, .goOn (.outside 0), .goOn (.outside 0)] = some s ∧
    (machine 2).run s [.goOn (.outside 0), .leave (.worker 0), .leave .caller, .join, .join] =
      some t ∧ t.trace = [.called, .returned] ∧ 5 ≤ s.work + (2 + 1) * 0 := by
  refine ⟨_, _, rfl, rfl, rfl, ?_⟩
  have hboth := stop_returns (n := 2)
    (l := [.run, .spawn, .spawn, .stop, .goOn (.outside 0), .goOn (.outside 0)])
    (k := [.goOn (.outside 0), .leave (.worker 0), .leave .caller, .join, .join])
    (by decide) rfl rfl rfl ?_ rfl (by decide) (by decide)
  · exact hboth.1
  · show ∀ c, c < 2 → _
    decide

end Runs

/-! ## The stop signals -/

/-- The signals are waited for once, or one has come, and its handler has stopped the contexts or is
about to. -/
def SignalAwaited (s : IOService) : Prop :=
  s.signalWaits = 1 ∨ s.signalWaits = 0 ∧
    (s.Stopped ∨ ∃ u c k, s.loopOf u = some (c, .handler (some k)))

/-- A call of `stop` in a handler goes on, or has stopped all contexts. -/
theorem stopping_step (hsound : Sound s) (hstep : Step s a t) {k : ContextId}
    (hu : s.loopOf u = some (c, .handler (some k))) :
    t.Stopped ∨ ∃ i, t.loopOf u = some (c, .handler (some i)) := by
  have hother : ∀ {r : IOService} {v d x} y, r.loopOf v = some (d, x) →
      r.loopOf u = s.loopOf u → x ≠ .handler (some k) →
        (r.setLoop v y).loopOf u = some (c, .handler (some k)) := by
    intro r v d x y hv hsame hx
    rw [loopOf_setLoop hv, if_neg, hsame, hu]
    rintro rfl
    rw [hsame, hu] at hv
    exact hx (Prod.mk.inj (Option.some.inj hv)).2.symm
  have hworker : (∀ x, s.caller ≠ .running x) → ∃ i, u = .worker i := by
    intro hcaller
    cases u with
    | caller => exact absurd (loopOf_caller.mp hu).2 (hcaller _)
    | worker i => exact ⟨i, rfl⟩
  cases hstep with
  | run hcaller =>
    obtain ⟨i, rfl⟩ := hworker fun x hx => by rw [hcaller] at hx; cases hx
    exact Or.inr ⟨k, hu⟩
  | @spawn m hcaller =>
    obtain ⟨i, rfl⟩ := hworker fun x hx => by rw [hcaller] at hx; cases hx
    refine Or.inr ⟨k, ?_⟩
    unfold IOService.spawn
    split
    · obtain ⟨w, hw, hcontext, hloop⟩ := loopOf_worker.mp hu
      refine loopOf_worker.mpr ⟨w, ?_, hcontext, hloop⟩
      exact (List.getElem?_append_left (List.getElem?_eq_some_iff.mp hw).1).trans hw
    · exact hu
  | start hv => exact Or.inr ⟨k, hother (r := s) _ hv rfl fun hx => by cases hx⟩
  | callStop hv => exact Or.inr ⟨k, hother (r := s) _ hv rfl fun hx => by cases hx⟩
  | finish hv => exact Or.inr ⟨k, hother (r := s) _ hv rfl fun hx => by cases hx⟩
  | @signal v error hv =>
    refine Or.inr ⟨k, ?_⟩
    unfold onSignal
    cases error with
    | true =>
      exact hother (r := { s with signalWaits := s.signalWaits - 1 + 1 }) (.handler none) hv
        (by cases u <;> rfl) fun hx => by cases hx
    | false =>
      exact hother (r := { s with signalWaits := s.signalWaits - 1 }) (.handler (some 0)) hv
        (by cases u <;> rfl) fun hx => by cases hx
  | stop => exact Or.inr ⟨k, hu⟩
  | @goOn call m hcall =>
    rcases call with v | j
    · simp only [stopAt] at hcall
      split at hcall
      next d stopping hv =>
        subst hcall
        by_cases huv : u = v
        · subst huv
          obtain ⟨rfl, hloop⟩ := Prod.mk.inj (Option.some.inj (hu.symm.trans hv))
          obtain rfl := Option.some.inj (EventLoop.handler.inj hloop)
          unfold stopFrom
          split
          · refine Or.inr ⟨k + 1, ?_⟩
            exact (loopOf_setLoop (s := { s with stopped := Function.update s.stopped k true }) hu
              _).trans (if_pos rfl)
          next hge =>
            refine Or.inl fun b hb => ?_
            have hkeeps := setStop_keeps s (.inHandler u) none
            refine hkeeps.stopped b (hsound.handlers u c k hu b ?_)
            exact Nat.lt_of_lt_of_le (hkeeps.poolSize ▸ hb) (Nat.le_of_not_lt hge)
        · refine Or.inr ⟨k, ?_⟩
          unfold stopFrom
          split
          · exact (loopOf_setLoop (s := { s with stopped := Function.update s.stopped m true }) hv
              _).trans ((if_neg huv).trans hu)
          · exact (loopOf_setLoop hv _).trans ((if_neg huv).trans hu)
      next => cases hcall
    · refine Or.inr ⟨k, ?_⟩
      unfold stopFrom
      split <;> exact hu
  | @throw v d hv =>
    -- the thread that throws is another one: it is in no call of `stop`
    refine Or.inr ⟨k, ?_⟩
    cases v with
    | caller =>
      cases u with
      | caller =>
        rw [hu] at hv
        cases hv
      | worker i => exact hu
    | worker i => exact hu
  | @leave v d hv =>
    refine Or.inr ⟨k, ?_⟩
    rw [loopOf_leaveLoop, if_neg, hu]
    rintro rfl
    rw [hu] at hv
    cases hv
  | @join j w hcaller hw =>
    obtain ⟨i, rfl⟩ := hworker fun x hx => by rw [hcaller] at hx; cases hx
    obtain ⟨w', hw', hcontext, hloop⟩ := loopOf_worker.mp hu
    refine Or.inr ⟨k, loopOf_worker.mpr ?_⟩
    by_cases hij : j = i
    · subst hij
      obtain rfl := Option.some.inj (hw.symm.trans hw')
      exact ⟨_, List.getElem?_set_self (List.getElem?_eq_some_iff.mp hw).1, hcontext, hloop⟩
    · exact ⟨w', (List.getElem?_set_ne hij).trans hw', hcontext, hloop⟩
  | joinThrows hcaller | joined hcaller =>
    obtain ⟨i, rfl⟩ := hworker fun x hx => by rw [hcaller] at hx; cases hx
    exact Or.inr ⟨k, hu⟩

theorem setLoop_signalWaits (s : IOService) (u : ThreadId) (loop : EventLoop) :
    (s.setLoop u loop).signalWaits = s.signalWaits := by
  cases u <;> rfl

theorem setStop_signalWaits (s : IOService) (call : StopCall) (k : Option ContextId) :
    (s.setStop call k).signalWaits = s.signalWaits := by
  cases call with
  | inHandler u => exact setLoop_signalWaits s u _
  | outside i => cases k <;> rfl

/-- Only the handler of the signals takes a wait for them away; it starts the next one, or a call of
`stop`. -/
theorem Step.signalWaits (h : Step s a t) : t.signalWaits = s.signalWaits ∨
    0 < s.signalWaits ∧ t.signalWaits = s.signalWaits - 1 ∧
      ∃ u, t.loopOf u = some (0, .handler (some 0)) := by
  cases h with
  | start | callStop | finish => exact Or.inl (setLoop_signalWaits s _ _)
  | @signal u error hloop _ hwaits =>
    unfold onSignal
    cases error with
    | true =>
      refine Or.inl ((setLoop_signalWaits { s with signalWaits := s.signalWaits - 1 + 1 } u _).trans
        ?_)
      exact Nat.sub_add_cancel hwaits
    | false =>
      refine Or.inr ⟨hwaits, setLoop_signalWaits { s with signalWaits := s.signalWaits - 1 } u _, u,
        ?_⟩
      exact (loopOf_setLoop (s := { s with signalWaits := s.signalWaits - 1 }) hloop _).trans
        (if_pos rfl)
  | @goOn call k =>
    unfold stopFrom
    split
    · exact Or.inl (setStop_signalWaits
        { s with stopped := Function.update s.stopped k true } call _)
    · exact Or.inl (setStop_signalWaits s call _)
  | @throw u => exact Or.inl (by cases u <;> rfl)
  | @leave u => exact Or.inl (by cases u <;> rfl)
  | @spawn i =>
    unfold IOService.spawn
    exact Or.inl (by split <;> rfl)
  | _ => exact Or.inl rfl

theorem SignalAwaited.step (h : SignalAwaited s) (hsound : Sound s) (hstep : Step s a t) :
    SignalAwaited t := by
  rcases hstep.signalWaits with hsame | ⟨hpos, hless, u, hu⟩
  · rcases h with hone | ⟨hzero, hdone⟩
    · exact Or.inl (hsame.trans hone)
    · refine Or.inr ⟨hsame.trans hzero, ?_⟩
      rcases hdone with hstopped | ⟨u, c, k, hu⟩
      · by_cases ha : ∃ i, a = .throw (.worker i)
        · obtain ⟨i, rfl⟩ := ha
          cases hstep
          exact Or.inl hstopped
        · have hkeeps := hstep.keeps fun i hi => ha ⟨i, hi⟩
          exact Or.inl fun c hc => hkeeps.stopped c (hstopped c (hkeeps.poolSize ▸ hc))
      · exact (stopping_step hsound hstep hu).imp id fun ⟨i, hi⟩ => ⟨u, c, i, hi⟩
  · rcases h with hone | ⟨hzero, -⟩
    · exact Or.inr ⟨by rw [hless, hone], Or.inr ⟨u, 0, 0, hu⟩⟩
    · omega

/-- **A stop signal is waited for** in every run, until one has come; and one that comes stops all
contexts. -/
theorem signal_awaited {n : Nat} {l : List Label} (hn : 0 < n)
    (hl : (machine n).run (machine n).init l = some s) : s.SignalAwaited := by
  have hall := Machine.run_invariant (M := machine n)
    (I := fun s => (Sound s ∧ s.poolSize = n) ∧ s.SignalAwaited) ?_ hl ⟨⟨.init n, rfl⟩, Or.inl rfl⟩
  · exact hall.2
  · rintro s a t ⟨⟨hsound, rfl⟩, h⟩ ht
    have hstep := Step.of_step ht
    exact ⟨⟨hsound.step hn hstep, hstep.poolSize⟩, h.step hsound hstep⟩

/-- The wait fails and is started again; then a signal comes. -/
theorem signal_awaited_failed : ∃ s, (machine 1).run (machine 1).init
      [.run, .spawn, .signal .caller true, .finish .caller, .signal .caller false] = some s ∧
    s.signalWaits = 0 ∧ s.SignalAwaited :=
  ⟨_, rfl, rfl, signal_awaited (n := 1)
    (l := [.run, .spawn, .signal .caller true, .finish .caller, .signal .caller false])
    (by decide) rfl⟩

end IOService

end Asyncgi
