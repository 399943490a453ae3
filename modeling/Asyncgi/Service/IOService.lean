import Asyncgi.Transition.Run
import Mathlib.Data.List.Nodup

/-!
# The threads of `IO`

An `IOService` has a pool of contexts. `IOService::run` makes a thread for every context but the
first, which it runs itself, and joins the threads after that. `IOService::stop` stops the contexts
one after the other; it is called by handlers, by other threads, and by the handler of the stop
signals. The threads go on in any order.

What is taken from asio and from the standard library: a context that has been stopped starts no
handler any more, and its `run()` returns, then and whenever it is called again; the guards keep a
context that has nothing to do from returning; `join` throws on a thread that has been joined; an
exception that leaves the function of a thread ends the program.

## Main definitions

* `IOService`: the contexts, the threads, and where the caller of `IOService::run` is
* `IOService.machine`: the threads' moves, in any order
* `IOService.Stopped`, `IOService.Quiet`: all contexts are stopped, and no handler is run

## Main results

* `IOService.Step.of_step`: what a move can do
* `IOService.returned_quiet`: after `IOService::run` has returned no handler is run
-/

namespace Asyncgi

/-- A context of the pool, by its index in `ioPool_`. -/
abbrev ContextId := Nat

/-- Where the event loop of a context is in a thread that runs it. -/
inductive EventLoop
  | waiting
  /-- A handler is run; in a call of `IOService::stop`, the contexts before the one given have been
  stopped. -/
  | handler (stopping : Option ContextId)
  deriving DecidableEq, Repr

/-- A thread of `threadPool_`. -/
structure Worker where
  context : ContextId
  /-- None when `io_context::run` has returned. -/
  loop : Option EventLoop := some .waiting
  joinable : Bool := true
  deriving DecidableEq, Repr

/-- Where the caller of `IOService::run` is. -/
inductive RunCaller
  | outside
  /-- The thread of the context is made next. -/
  | spawning (i : ContextId)
  | running (loop : EventLoop)
  /-- The thread is joined next. -/
  | joining (j : Nat)
  deriving DecidableEq, Repr

/-- How the calls of `IOService::run` go. -/
inductive RunEvent
  | called
  | returned
  | threw
  deriving DecidableEq, Repr

/-- The threads that run contexts. -/
inductive ThreadId
  | caller
  | worker (i : Nat)
  deriving DecidableEq, Repr

/-- A call of `IOService::stop`. -/
inductive StopCall
  /-- in a handler -/
  | inHandler (t : ThreadId)
  /-- in a thread that runs no context -/
  | outside (i : Nat)
  deriving DecidableEq, Repr

/-- An `IOService`. -/
structure IOService where
  /-- `ioPool_.size()`; the constructor throws when there is no context. -/
  poolSize : Nat := 1
  stopped : ContextId → Bool := fun _ => false
  /-- The waits for a signal that are outstanding. -/
  signalWaits : Nat := 1
  threadPool : List Worker := []
  caller : RunCaller := .outside
  /-- The calls of `stop` in threads that run no context: the context that each stops next. -/
  stops : List ContextId := []
  terminated : Bool := false
  trace : List RunEvent := []

namespace IOService

variable (s : IOService)

/-- The context that the thread runs, and where its loop is. -/
def loopOf : ThreadId → Option (ContextId × EventLoop)
  | .caller =>
    match s.caller with
    | .running loop => some (0, loop)
    | _ => none
  | .worker i => s.threadPool[i]?.bind fun w => w.loop.map (w.context, ·)

def setWorker (i : Nat) (loop : Option EventLoop) : IOService :=
  { s with threadPool := s.threadPool.modify i fun w => { w with loop := loop } }

def setLoop : ThreadId → EventLoop → IOService
  | .caller, loop => { s with caller := .running loop }
  | .worker i, loop => s.setWorker i (some loop)

/-- `IOService::handleStopSignals`. -/
def handleStopSignals : IOService := { s with signalWaits := s.signalWaits + 1 }

/-- The handler of the stop signals is called. -/
def onSignal (t : ThreadId) (error : Bool) : IOService :=
  let s := { s with signalWaits := s.signalWaits - 1 }
  if error then s.handleStopSignals.setLoop t (.handler none)
  else s.setLoop t (.handler (some 0))

/-- The context that a call of `stop` stops next. -/
def stopAt : StopCall → Option ContextId
  | .inHandler t =>
    match s.loopOf t with
    | some (_, .handler stopping) => stopping
    | _ => none
  | .outside i => s.stops[i]?

/-- A call of `stop` goes on with the next context, or returns. -/
def setStop : StopCall → Option ContextId → IOService
  | .inHandler t, k => s.setLoop t (.handler k)
  | .outside i, some k => { s with stops := s.stops.set i k }
  | .outside i, none => { s with stops := s.stops.eraseIdx i }

/-- `IOService::stop`, from the context `k` on. -/
def stopFrom (call : StopCall) (k : ContextId) : IOService :=
  if k < s.poolSize then
    { s with stopped := Function.update s.stopped k true }.setStop call (some (k + 1))
  else s.setStop call none

/-- `IOService::run`, up to the loop over the contexts. -/
def run : IOService := { s with caller := .spawning 1, trace := s.trace ++ [.called] }

/-- The loop over the contexts in `IOService::run`, which makes the threads. -/
def spawn (i : ContextId) : IOService :=
  if i < s.poolSize then
    { s with threadPool := s.threadPool ++ [{ context := i }], caller := .spawning (i + 1) }
  else { s with caller := .running .waiting }

/-- `IOService::run` is left. -/
def leaveRun (event : RunEvent) : IOService :=
  { s with caller := .outside, trace := s.trace ++ [event] }

/-- An exception leaves a handler. -/
def throw : ThreadId → IOService
  | .caller => s.leaveRun .threw
  | .worker _ => { s with terminated := true }

/-- `io_context::run` returns. -/
def leaveLoop : ThreadId → IOService
  | .caller => { s with caller := .joining 0 }
  | .worker i => s.setWorker i none

/-- The loop over the threads in `IOService::run`. -/
def join (j : Nat) : Option IOService :=
  match s.threadPool[j]? with
  | none => some (s.leaveRun .returned)
  | some w =>
    -- `join` throws on a thread that was joined before, and waits for one that runs
    if !w.joinable then some (s.leaveRun .threw)
    else if w.loop = none then
      some { s with
        threadPool := s.threadPool.set j { w with joinable := false }
        caller := .joining (j + 1) }
    else none

/-- The moves of the threads. -/
inductive Label
  | run
  | spawn
  /-- The loop starts a handler. -/
  | start (t : ThreadId)
  /-- The loop starts the handler of the stop signals. -/
  | signal (t : ThreadId) (error : Bool)
  /-- A handler calls `stop`. -/
  | callStop (t : ThreadId)
  /-- Another thread calls `stop`. -/
  | stop
  /-- A call of `stop` goes on. -/
  | goOn (call : StopCall)
  /-- A handler returns. -/
  | finish (t : ThreadId)
  /-- A handler throws. -/
  | throw (t : ThreadId)
  | leave (t : ThreadId)
  | join
  deriving DecidableEq, Repr

/-- One move. -/
def step (l : Label) : Option IOService :=
  if s.terminated then none else
  match l with
  | .run => if s.caller = .outside then some s.run else none
  | .spawn =>
    match s.caller with
    | .spawning i => some (s.spawn i)
    | _ => none
  | .start t =>
    match s.loopOf t with
    | some (c, .waiting) => if s.stopped c then none else some (s.setLoop t (.handler none))
    | _ => none
  | .signal t error =>
    -- the signals are waited for on the first context
    if s.loopOf t = some (0, .waiting) ∧ s.stopped 0 = false ∧ 0 < s.signalWaits then
      some (s.onSignal t error)
    else none
  | .callStop t =>
    match s.loopOf t with
    | some (_, .handler none) => some (s.setLoop t (.handler (some 0)))
    | _ => none
  | .stop => some { s with stops := s.stops ++ [0] }
  | .goOn call => (s.stopAt call).map (s.stopFrom call)
  | .finish t =>
    match s.loopOf t with
    | some (_, .handler none) => some (s.setLoop t .waiting)
    | _ => none
  | .throw t =>
    match s.loopOf t with
    | some (_, .handler none) => some (s.throw t)
    | _ => none
  | .leave t =>
    -- the guards keep a context that is not stopped from returning
    match s.loopOf t with
    | some (c, .waiting) => if s.stopped c then some (s.leaveLoop t) else none
    | _ => none
  | .join =>
    match s.caller with
    | .joining j => s.join j
    | _ => none

/-- The service over `poolSize` contexts. -/
def machine (poolSize : Nat) : Machine IOService Label where
  init := { poolSize := poolSize }
  step := step

/-- All contexts have been stopped. -/
def Stopped : Prop := ∀ c, c < s.poolSize → s.stopped c = true

/-- All contexts have been stopped, and no handler is run. -/
structure Quiet : Prop where
  stopped : s.Stopped
  waiting : ∀ t c loop, s.loopOf t = some (c, loop) → loop = .waiting

/-- The moves, case by case. -/
inductive Step (s : IOService) : Label → IOService → Prop
  | run (hcaller : s.caller = .outside) : Step s .run s.run
  | spawn {i} (hcaller : s.caller = .spawning i) : Step s .spawn (s.spawn i)
  | start {t c} (hloop : s.loopOf t = some (c, .waiting)) (hc : s.stopped c = false) :
      Step s (.start t) (s.setLoop t (.handler none))
  | signal {t error} (hloop : s.loopOf t = some (0, .waiting)) (hc : s.stopped 0 = false)
      (hwaits : 0 < s.signalWaits) : Step s (.signal t error) (s.onSignal t error)
  | callStop {t c} (hloop : s.loopOf t = some (c, .handler none)) :
      Step s (.callStop t) (s.setLoop t (.handler (some 0)))
  | stop : Step s .stop { s with stops := s.stops ++ [0] }
  | goOn {call k} (hcall : s.stopAt call = some k) : Step s (.goOn call) (s.stopFrom call k)
  | finish {t c} (hloop : s.loopOf t = some (c, .handler none)) :
      Step s (.finish t) (s.setLoop t .waiting)
  | throw {t c} (hloop : s.loopOf t = some (c, .handler none)) : Step s (.throw t) (s.throw t)
  | leave {t c} (hloop : s.loopOf t = some (c, .waiting)) (hc : s.stopped c = true) :
      Step s (.leave t) (s.leaveLoop t)
  | join {j w} (hcaller : s.caller = .joining j) (hw : s.threadPool[j]? = some w)
      (hjoinable : w.joinable = true) (hloop : w.loop = none) :
      Step s .join { s with
        threadPool := s.threadPool.set j { w with joinable := false }
        caller := .joining (j + 1) }
  | joinThrows {j w} (hcaller : s.caller = .joining j) (hw : s.threadPool[j]? = some w)
      (hjoinable : w.joinable = false) : Step s .join (s.leaveRun .threw)
  | joined {j} (hcaller : s.caller = .joining j) (hw : s.threadPool[j]? = none) :
      Step s .join (s.leaveRun .returned)

variable {s} {t : IOService} {a : Label}

theorem Step.of_step (h : s.step a = some t) : Step s a t := by
  unfold step at h
  split at h
  · cases h
  cases a with
  | run =>
    obtain ⟨hcaller, rfl⟩ := by simpa using h
    exact .run hcaller
  | spawn =>
    dsimp only at h
    split at h
    next i hcaller =>
      obtain rfl := Option.some.inj h
      exact .spawn hcaller
    next => cases h
  | start u =>
    dsimp only at h
    split at h
    next c hloop =>
      obtain ⟨hc, rfl⟩ := by simpa using h
      exact .start hloop hc
    next => cases h
  | signal u error =>
    obtain ⟨⟨hloop, hc, hwaits⟩, rfl⟩ := by simpa using h
    exact .signal hloop hc hwaits
  | callStop u =>
    dsimp only at h
    split at h
    next c hloop =>
      obtain rfl := Option.some.inj h
      exact .callStop hloop
    next => cases h
  | stop =>
    obtain rfl := Option.some.inj h
    exact .stop
  | goOn call =>
    obtain ⟨k, hcall, rfl⟩ := Option.map_eq_some_iff.mp h
    exact .goOn hcall
  | finish u =>
    dsimp only at h
    split at h
    next c hloop =>
      obtain rfl := Option.some.inj h
      exact .finish hloop
    next => cases h
  | throw u =>
    dsimp only at h
    split at h
    next c hloop =>
      obtain rfl := Option.some.inj h
      exact .throw hloop
    next => cases h
  | leave u =>
    dsimp only at h
    split at h
    next c hloop =>
      obtain ⟨hc, rfl⟩ := by simpa using h
      exact .leave hloop hc
    next => cases h
  | join =>
    dsimp only at h
    split at h
    next j hcaller =>
      unfold IOService.join at h
      split at h
      next hw =>
        obtain rfl := Option.some.inj h
        exact .joined hcaller hw
      next w hw =>
        split at h
        next hjoinable =>
          obtain rfl := Option.some.inj h
          exact .joinThrows hcaller hw (by simpa using hjoinable)
        next hjoinable =>
          obtain ⟨hloop, rfl⟩ := by simpa using h
          exact .join hcaller hw (by simpa using hjoinable) hloop
    next => cases h

/-! ## The loops of the threads -/

/-- The elements of a list after one of them has changed. -/
theorem mem_modify {α : Type*} {f : α → α} {l : List α} {i : Nat} {b : α}
    (h : b ∈ l.modify i f) : b ∈ l ∨ ∃ a, l[i]? = some a ∧ b = f a := by
  obtain ⟨j, hj⟩ := List.mem_iff_getElem?.mp h
  rw [List.getElem?_modify] at hj
  obtain ⟨a, ha, rfl⟩ := Option.map_eq_some_iff.mp hj
  by_cases hij : i = j
  · subst hij
    exact Or.inr ⟨a, ha, by simp⟩
  · rw [if_neg hij]
    exact Or.inl (List.mem_of_getElem? ha)

section Loops

variable {u v : ThreadId} {i : Nat} {c : ContextId} {loop : EventLoop}

theorem loopOf_caller : s.loopOf .caller = some (c, loop) ↔ c = 0 ∧ s.caller = .running loop := by
  unfold loopOf
  cases s.caller <;> simp [eq_comm]

theorem loopOf_worker : s.loopOf (.worker i) = some (c, loop) ↔
    ∃ w, s.threadPool[i]? = some w ∧ w.context = c ∧ w.loop = some loop := by
  simp only [loopOf, Option.bind_eq_some_iff, Option.map_eq_some_iff, Prod.mk.injEq]
  constructor
  · rintro ⟨w, hw, _, hloop, rfl, rfl⟩
    exact ⟨w, hw, rfl, hloop⟩
  · rintro ⟨w, hw, rfl, hloop⟩
    exact ⟨w, hw, loop, hloop, rfl, rfl⟩

theorem setWorker_getElem? (x : Option EventLoop) (j : Nat) : (s.setWorker i x).threadPool[j]? =
    if i = j then s.threadPool[j]?.map fun w => { w with loop := x } else s.threadPool[j]? := by
  unfold setWorker
  rw [List.getElem?_modify]
  by_cases hij : i = j <;> simp [hij]

/-- The threads keep their contexts. -/
theorem exists_setWorker (x : Option EventLoop) (h : ∃ w ∈ s.threadPool, w.context = c) :
    ∃ w ∈ (s.setWorker i x).threadPool, w.context = c := by
  obtain ⟨w, hw, rfl⟩ := h
  obtain ⟨j, hj⟩ := List.mem_iff_getElem?.mp hw
  refine ⟨if i = j then { w with loop := x } else w, ?_, by split <;> rfl⟩
  refine List.mem_of_getElem? (i := j) ?_
  rw [setWorker_getElem?, hj]
  split <;> rfl

/-- The loop of one thread changes. -/
theorem loopOf_setLoop (hu : s.loopOf u = some (c, loop)) (loop' : EventLoop) :
    (s.setLoop u loop').loopOf v = if v = u then some (c, loop') else s.loopOf v := by
  cases u with
  | caller =>
    obtain ⟨rfl, -⟩ := loopOf_caller.mp hu
    cases v with
    | caller => rfl
    | worker j => rfl
  | worker i =>
    obtain ⟨w, hw, rfl, -⟩ := loopOf_worker.mp hu
    cases v with
    | caller => rfl
    | worker j =>
      simp only [loopOf, setLoop, setWorker_getElem?, ThreadId.worker.injEq, eq_comm (a := i)]
      by_cases hij : j = i
      · subst hij
        simp [hw]
      · rw [if_neg hij, if_neg hij]

/-- The `run()` of one thread's context returns. -/
theorem loopOf_leaveLoop : (s.leaveLoop u).loopOf v = if v = u then none else s.loopOf v := by
  cases u with
  | caller =>
    cases v with
    | caller => rfl
    | worker j => rfl
  | worker i =>
    cases v with
    | caller => rfl
    | worker j =>
      simp only [loopOf, leaveLoop, setWorker_getElem?, ThreadId.worker.injEq, eq_comm (a := i)]
      by_cases hij : j = i
      · subst hij
        cases s.threadPool[j]? <;> simp
      · rw [if_neg hij, if_neg hij]

end Loops

/-- A context that is stopped stays so. -/
theorem stopped_update {b : ContextId} (k : ContextId) (hb : s.stopped b = true) :
    Function.update s.stopped k true b = true := by
  by_cases hk : b = k
  · rw [hk, Function.update_self]
  · rwa [Function.update_of_ne hk]

/-! ## What holds of all threads -/

/-- The contexts below this one have a thread that was made in this call of `IOService::run` or in
one before. -/
def made (s : IOService) : ContextId :=
  match s.caller with
  | .outside => 0
  | .spawning i => i
  | .running _ | .joining _ => s.poolSize

/-- The threads of the pool are past the loops that they have left, and so are the calls of `stop`
past the contexts that they have stopped. -/
structure Sound (s : IOService) : Prop where
  contexts : ∀ w ∈ s.threadPool, 0 < w.context ∧ w.context < s.poolSize
  finished : ∀ w ∈ s.threadPool, w.loop = none → s.stopped w.context = true
  spawning : ∀ i, s.caller = .spawning i → 0 < i
  made : ∀ c, 0 < c → c < s.made → ∃ w ∈ s.threadPool, w.context = c
  joining : ∀ j, s.caller = .joining j → s.stopped 0 = true ∧
    ∀ i w, i < j → s.threadPool[i]? = some w → w.loop = none ∧ w.joinable = false
  handlers : ∀ t c k, s.loopOf t = some (c, .handler (some k)) → ∀ b < k, s.stopped b = true
  stops : ∀ k ∈ s.stops, ∀ b < k, s.stopped b = true
  returned : .returned ∈ s.trace → s.Quiet

namespace Sound

theorem init (poolSize : Nat) : Sound { poolSize := poolSize } where
  contexts := nofun
  finished := nofun
  spawning := nofun
  made _ _ := nofun
  joining := nofun
  handlers t _ _ h := by cases t <;> cases h
  stops := nofun
  returned := nofun

variable {u : ThreadId} {c : ContextId} {loop : EventLoop}

/-- The loop of a thread goes on. -/
theorem setLoop (h : Sound s) (hu : s.loopOf u = some (c, loop)) {x : EventLoop}
    (hstop : ∀ k, x = .handler (some k) → ∀ b < k, s.stopped b = true)
    (hquiet : .returned ∈ s.trace → x = .waiting) : Sound (s.setLoop u x) := by
  have hhandlers : ∀ t b k, (s.setLoop u x).loopOf t = some (b, .handler (some k)) →
      ∀ b < k, s.stopped b = true := by
    intro t b k hloop
    rw [loopOf_setLoop hu] at hloop
    split at hloop
    · obtain ⟨rfl, rfl⟩ := Prod.mk.inj (Option.some.inj hloop)
      exact hstop k rfl
    · exact h.handlers t b k hloop
  have hwaiting : .returned ∈ s.trace →
      ∀ t b l, (s.setLoop u x).loopOf t = some (b, l) → l = .waiting := by
    intro hreturned t b l hloop
    rw [loopOf_setLoop hu] at hloop
    split at hloop
    · obtain ⟨rfl, rfl⟩ := Prod.mk.inj (Option.some.inj hloop)
      exact hquiet hreturned
    · exact (h.returned hreturned).waiting t b l hloop
  cases u with
  | caller =>
    obtain ⟨rfl, hcaller⟩ := loopOf_caller.mp hu
    exact
      { contexts := h.contexts
        finished := h.finished
        spawning := nofun
        made := fun c hc hlt => h.made c hc (by rwa [IOService.made, hcaller])
        joining := nofun
        handlers := hhandlers
        stops := h.stops
        returned := fun hreturned => ⟨(h.returned hreturned).stopped, hwaiting hreturned⟩ }
  | worker i =>
    obtain ⟨v, hv, rfl, hloop⟩ := loopOf_worker.mp hu
    have hmem : ∀ w ∈ (s.setWorker i (some x)).threadPool,
        ∃ w' ∈ s.threadPool, w.context = w'.context ∧ (w.loop = none → w'.loop = none) := by
      intro w hw
      rcases mem_modify hw with hw | ⟨w', hw', rfl⟩
      · exact ⟨w, hw, rfl, id⟩
      · exact ⟨w', List.mem_of_getElem? hw', rfl, nofun⟩
    exact
      { contexts := fun w hw => by
          obtain ⟨w', hw', hcontext, -⟩ := hmem w hw
          rw [hcontext]
          exact h.contexts w' hw'
        finished := fun w hw hnone => by
          obtain ⟨w', hw', hcontext, hloop⟩ := hmem w hw
          rw [hcontext]
          exact h.finished w' hw' (hloop hnone)
        spawning := h.spawning
        made := fun c hc hlt => exists_setWorker (some x) (h.made c hc hlt)
        joining := fun j hj => by
          refine ⟨(h.joining j hj).1, fun k w hk hw => ?_⟩
          rw [IOService.setLoop, setWorker_getElem?] at hw
          split at hw
          next heq =>
            subst heq
            rw [((h.joining j hj).2 i v hk hv).1] at hloop
            cases hloop
          next => exact (h.joining j hj).2 k w hk hw
        handlers := hhandlers
        stops := h.stops
        returned := fun hreturned => ⟨(h.returned hreturned).stopped, hwaiting hreturned⟩ }

/-- In a service that is quiet no handler is run. -/
theorem not_returned (h : Sound s) {x : Option ContextId}
    (hu : s.loopOf u = some (c, .handler x)) : .returned ∉ s.trace := by
  intro hreturned
  have hwaiting := (h.returned hreturned).waiting u c _ hu
  cases hwaiting

theorem stopContext (h : Sound s) (k : ContextId) :
    Sound { s with stopped := Function.update s.stopped k true } := by
  have hmono : ∀ b, s.stopped b = true → Function.update s.stopped k true b = true :=
    fun _ => stopped_update k
  exact
    { contexts := h.contexts
      finished := fun w hw hloop => hmono _ (h.finished w hw hloop)
      spawning := h.spawning
      made := h.made
      joining := fun j hj => ⟨hmono 0 (h.joining j hj).1, (h.joining j hj).2⟩
      handlers := fun t b i hloop d hd => hmono d (h.handlers t b i hloop d hd)
      stops := fun i hi d hd => hmono d (h.stops i hi d hd)
      returned := fun hreturned =>
        ⟨fun b hb => hmono b ((h.returned hreturned).stopped b hb),
          (h.returned hreturned).waiting⟩ }

/-- The calls of `stop` in other threads go on. -/
theorem withStops (h : Sound s) {stops : List ContextId}
    (hstops : ∀ k ∈ stops, ∀ b < k, s.stopped b = true) : Sound { s with stops := stops } :=
  { contexts := h.contexts
    finished := h.finished
    spawning := h.spawning
    made := h.made
    joining := h.joining
    handlers := h.handlers
    stops := hstops
    returned := fun hreturned => ⟨(h.returned hreturned).stopped, (h.returned hreturned).waiting⟩ }

/-- The contexts that a call of `stop` is past are stopped. -/
theorem stopAt (h : Sound s) {call : StopCall} {k : ContextId} (hk : s.stopAt call = some k) :
    ∀ b < k, s.stopped b = true := by
  cases call with
  | inHandler t =>
    simp only [IOService.stopAt] at hk
    split at hk
    next c stopping hloop =>
      subst hk
      exact h.handlers t c k hloop
    next => cases hk
  | outside i => exact h.stops k (List.mem_of_getElem? hk)

theorem setStop (h : Sound s) {call : StopCall} {x : Option ContextId} {k : ContextId}
    (hk : s.stopAt call = some k) (hx : ∀ i, x = some i → ∀ b < i, s.stopped b = true) :
    Sound (s.setStop call x) := by
  cases call with
  | inHandler t =>
    simp only [IOService.stopAt] at hk
    split at hk
    next c stopping hloop =>
      refine h.setLoop hloop ?_ fun hreturned => absurd hreturned (h.not_returned hloop)
      rintro i ⟨⟩
      exact hx i rfl
    next => cases hk
  | outside i =>
    cases x with
    | some j =>
      refine h.withStops fun l hl => ?_
      rcases List.mem_or_eq_of_mem_set hl with hl | rfl
      · exact h.stops l hl
      · exact hx l rfl
    | none => exact h.withStops fun l hl => h.stops l (List.mem_of_mem_eraseIdx hl)

theorem stopFrom (h : Sound s) {call : StopCall} {k : ContextId} (hk : s.stopAt call = some k) :
    Sound (s.stopFrom call k) := by
  unfold IOService.stopFrom
  split
  · have hk' : { s with stopped := Function.update s.stopped k true }.stopAt call = some k := by
      cases call <;> exact hk
    refine (h.stopContext k).setStop hk' ?_
    · rintro i ⟨⟩ b hb
      rcases Nat.lt_succ_iff_lt_or_eq.mp hb with hb | rfl
      · exact (h.stopContext k).stopAt hk' b hb
      · exact Function.update_self ..
  · exact h.setStop hk nofun

/-- The `run()` of a context that is stopped returns. -/
theorem leaveLoop (h : Sound s) (hu : s.loopOf u = some (c, .waiting)) (hc : s.stopped c = true) :
    Sound (s.leaveLoop u) := by
  have hloops : ∀ t b l, (s.leaveLoop u).loopOf t = some (b, l) → s.loopOf t = some (b, l) := by
    intro t b l hloop
    rw [loopOf_leaveLoop] at hloop
    split at hloop
    · cases hloop
    · exact hloop
  have hquiet : .returned ∈ s.trace →
      ∀ t b l, (s.leaveLoop u).loopOf t = some (b, l) → l = .waiting :=
    fun hreturned t b l hloop => (h.returned hreturned).waiting t b l (hloops t b l hloop)
  cases u with
  | caller =>
    obtain ⟨rfl, hcaller⟩ := loopOf_caller.mp hu
    exact
      { contexts := h.contexts
        finished := h.finished
        spawning := nofun
        made := fun c hc hlt => h.made c hc (by rwa [IOService.made, hcaller])
        joining := fun j hj => by
          obtain rfl := RunCaller.joining.inj hj
          exact ⟨hc, fun _ _ hlt => absurd hlt (Nat.not_lt_zero _)⟩
        handlers := fun t b k hloop => h.handlers t b k (hloops t b _ hloop)
        stops := h.stops
        returned := fun hreturned => ⟨(h.returned hreturned).stopped, hquiet hreturned⟩ }
  | worker i =>
    obtain ⟨v, hv, rfl, -⟩ := loopOf_worker.mp hu
    exact
      { contexts := fun w hw => by
          rcases mem_modify hw with hw | ⟨w', hw', rfl⟩
          · exact h.contexts w hw
          · exact h.contexts w' (List.mem_of_getElem? hw')
        finished := fun w hw hnone => by
          rcases mem_modify hw with hw | ⟨w', hw', rfl⟩
          · exact h.finished w hw hnone
          · obtain rfl := Option.some.inj (hv.symm.trans hw')
            exact hc
        spawning := h.spawning
        made := fun c hc hlt => exists_setWorker none (h.made c hc hlt)
        joining := fun j hj => by
          refine ⟨(h.joining j hj).1, fun k w hk hw => ?_⟩
          rw [IOService.leaveLoop, setWorker_getElem?] at hw
          split at hw
          · obtain ⟨w', hw', rfl⟩ := Option.map_eq_some_iff.mp hw
            exact ⟨rfl, ((h.joining j hj).2 k w' hk hw').2⟩
          · exact (h.joining j hj).2 k w hk hw
        handlers := fun t b k hloop => h.handlers t b k (hloops t b _ hloop)
        stops := h.stops
        returned := fun hreturned => ⟨(h.returned hreturned).stopped, hquiet hreturned⟩ }

/-- `IOService::run` is called. -/
theorem run (h : Sound s) : Sound s.run := by
  have hloops : ∀ t b l, s.run.loopOf t = some (b, l) → s.loopOf t = some (b, l) := by
    rintro (_ | i) b l hloop
    · cases hloop
    · exact hloop
  have hreturned : .returned ∈ s.run.trace → .returned ∈ s.trace := by simp [IOService.run]
  exact
    { contexts := h.contexts
      finished := h.finished
      spawning := fun i hi => by
        obtain rfl := RunCaller.spawning.inj hi
        exact Nat.zero_lt_one
      made := fun c hc hlt => absurd (Nat.lt_one_iff.mp hlt) (Nat.ne_of_gt hc)
      joining := nofun
      handlers := fun t b k hloop => h.handlers t b k (hloops t b _ hloop)
      stops := h.stops
      returned := fun hmem => ⟨(h.returned (hreturned hmem)).stopped, fun t b l hloop =>
        (h.returned (hreturned hmem)).waiting t b l (hloops t b l hloop)⟩ }

/-- The next thread is made, or the loop is left. -/
theorem spawn (h : Sound s) {i : ContextId} (hcaller : s.caller = .spawning i) :
    Sound (s.spawn i) := by
  have hmade : s.made = i := by rw [IOService.made, hcaller]
  have hloops : ∀ t b l, (s.spawn i).loopOf t = some (b, l) →
      s.loopOf t = some (b, l) ∨ l = .waiting := by
    intro t b l hloop
    unfold IOService.spawn at hloop
    split at hloop
    · cases t with
      | caller => cases hloop
      | worker j =>
        obtain ⟨w, hw, rfl, hl⟩ := loopOf_worker.mp hloop
        rcases Nat.lt_trichotomy j s.threadPool.length with hj | rfl | hj
        · rw [List.getElem?_append_left hj] at hw
          exact Or.inl (loopOf_worker.mpr ⟨w, hw, rfl, hl⟩)
        · rw [List.getElem?_concat_length] at hw
          obtain rfl := Option.some.inj hw
          exact Or.inr (Option.some.inj hl).symm
        · rw [List.getElem?_eq_none (by rw [List.length_append]; exact hj)] at hw
          cases hw
    · cases t with
      | caller => exact Or.inr (Prod.mk.inj (Option.some.inj hloop)).2.symm
      | worker j => exact Or.inl hloop
  have hhandlers : ∀ t b k, (s.spawn i).loopOf t = some (b, .handler (some k)) →
      ∀ d < k, s.stopped d = true := fun t b k hloop =>
    h.handlers t b k ((hloops t b _ hloop).resolve_right nofun)
  have hwaiting : .returned ∈ s.trace →
      ∀ t b l, (s.spawn i).loopOf t = some (b, l) → l = .waiting := fun hreturned t b l hloop =>
    (hloops t b l hloop).elim ((h.returned hreturned).waiting t b l) id
  unfold IOService.spawn at hhandlers hwaiting ⊢
  split
  next hi =>
    rw [if_pos hi] at hhandlers hwaiting
    exact
      { contexts := fun w hw => by
          rcases List.mem_append.mp hw with hw | hw
          · exact h.contexts w hw
          · obtain rfl := List.mem_singleton.mp hw
            exact ⟨h.spawning i hcaller, hi⟩
        finished := fun w hw hloop => by
          rcases List.mem_append.mp hw with hw | hw
          · exact h.finished w hw hloop
          · obtain rfl := List.mem_singleton.mp hw
            cases hloop
        spawning := fun j hj => by
          obtain rfl := RunCaller.spawning.inj hj
          exact Nat.succ_pos i
        made := fun c hc hlt => by
          have hlt : c < i + 1 := hlt
          rcases Nat.lt_succ_iff_lt_or_eq.mp hlt with hlt | rfl
          · obtain ⟨w, hw, hcontext⟩ := h.made c hc (hmade ▸ hlt)
            exact ⟨w, List.mem_append_left _ hw, hcontext⟩
          · exact ⟨{ context := c }, List.mem_append_right _ (List.mem_singleton_self _), rfl⟩
        joining := nofun
        handlers := hhandlers
        stops := h.stops
        returned := fun hreturned => ⟨(h.returned hreturned).stopped, hwaiting hreturned⟩ }
  next hi =>
    rw [if_neg hi] at hhandlers hwaiting
    exact
      { contexts := h.contexts
        finished := h.finished
        spawning := nofun
        made := fun c hc hlt => h.made c hc (hmade ▸ Nat.lt_of_lt_of_le hlt (Nat.le_of_not_lt hi))
        joining := nofun
        handlers := hhandlers
        stops := h.stops
        returned := fun hreturned => ⟨(h.returned hreturned).stopped, hwaiting hreturned⟩ }

/-- When all threads have been joined, all contexts have been stopped. -/
theorem joined (h : Sound s) {j : Nat} (hcaller : s.caller = .joining j)
    (hj : s.threadPool[j]? = none) : s.Stopped ∧ ∀ w ∈ s.threadPool, w.loop = none := by
  have hloop : ∀ w ∈ s.threadPool, w.loop = none := by
    intro w hw
    obtain ⟨i, hi⟩ := List.mem_iff_getElem?.mp hw
    refine ((h.joining j hcaller).2 i w ?_ hi).1
    exact Nat.lt_of_lt_of_le (List.getElem?_eq_some_iff.mp hi).1 (List.getElem?_eq_none_iff.mp hj)
  refine ⟨fun c hc => ?_, hloop⟩
  -- the caller was the first context's thread, and each of the others had one of its own
  rcases Nat.eq_zero_or_pos c with rfl | hpos
  · exact (h.joining j hcaller).1
  · obtain ⟨w, hw, rfl⟩ := h.made c hpos (by rwa [IOService.made, hcaller])
    exact h.finished w hw (hloop w hw)

/-- The call of `IOService::run` ends. -/
theorem leaveRun (h : Sound s) {event : RunEvent} (hquiet : event = .returned →
    s.Stopped ∧ ∀ w ∈ s.threadPool, w.loop = none) : Sound (s.leaveRun event) := by
  have hloops : ∀ t b l, (s.leaveRun event).loopOf t = some (b, l) → s.loopOf t = some (b, l) := by
    rintro (_ | i) b l hloop
    · cases hloop
    · exact hloop
  refine
    { contexts := h.contexts
      finished := h.finished
      spawning := nofun
      made := fun c _ hlt => absurd hlt (Nat.not_lt_zero c)
      joining := nofun
      handlers := fun t b k hloop => h.handlers t b k (hloops t b _ hloop)
      stops := h.stops
      returned := fun hmem => ?_ }
  rcases List.mem_append.mp hmem with hmem | hmem
  · exact ⟨(h.returned hmem).stopped, fun t b l hloop =>
      (h.returned hmem).waiting t b l (hloops t b l hloop)⟩
  · obtain ⟨hstopped, hnone⟩ := hquiet (List.mem_singleton.mp hmem).symm
    refine ⟨hstopped, fun t b l hloop => ?_⟩
    cases t with
    | caller => cases hloop
    | worker i =>
      obtain ⟨w, hw, -, hloop⟩ := loopOf_worker.mp hloop
      rw [hnone w (List.mem_of_getElem? hw)] at hloop
      cases hloop

/-- A thread is joined. -/
theorem join (h : Sound s) {j : Nat} {w : Worker} (hcaller : s.caller = .joining j)
    (hw : s.threadPool[j]? = some w) (hloop : w.loop = none) :
    Sound { s with
      threadPool := s.threadPool.set j { w with joinable := false }
      caller := .joining (j + 1) } := by
  have hget : ∀ (i : Nat) (v : Worker),
      (s.threadPool.set j { w with joinable := false })[i]? = some v →
      ∃ v' : Worker, s.threadPool[i]? = some v' ∧ v.context = v'.context ∧ v.loop = v'.loop ∧
        (i = j ∨ v.joinable = v'.joinable) := by
    intro i v hv
    rw [List.getElem?_set] at hv
    split at hv
    next heq =>
      split at hv
      · obtain rfl := Option.some.inj hv
        exact ⟨w, heq ▸ hw, rfl, rfl, Or.inl heq.symm⟩
      · cases hv
    next => exact ⟨v, hv, rfl, rfl, Or.inr rfl⟩
  have hmem : ∀ v ∈ s.threadPool.set j { w with joinable := false },
      ∃ v' ∈ s.threadPool, v.context = v'.context ∧ v.loop = v'.loop := by
    intro v hv
    obtain ⟨i, hi⟩ := List.mem_iff_getElem?.mp hv
    obtain ⟨v', hv', hcontext, hsame, -⟩ := hget i v hi
    exact ⟨v', List.mem_of_getElem? hv', hcontext, hsame⟩
  have hloops : ∀ t b l, IOService.loopOf { s with
      threadPool := s.threadPool.set j { w with joinable := false }
      caller := .joining (j + 1) } t = some (b, l) → s.loopOf t = some (b, l) := by
    rintro (_ | i) b l hloops
    · cases hloops
    · obtain ⟨v, hv, rfl, hl⟩ := loopOf_worker.mp hloops
      obtain ⟨v', hv', hcontext, hsame, -⟩ := hget i v hv
      exact loopOf_worker.mpr ⟨v', hv', hcontext.symm, hsame ▸ hl⟩
  exact
    { contexts := fun v hv => by
        obtain ⟨v', hv', hcontext, -⟩ := hmem v hv
        rw [hcontext]
        exact h.contexts v' hv'
      finished := fun v hv hnone => by
        obtain ⟨v', hv', hcontext, hsame⟩ := hmem v hv
        rw [hcontext]
        exact h.finished v' hv' (hsame ▸ hnone)
      spawning := nofun
      made := fun c hc hlt => by
        obtain ⟨v, hv, rfl⟩ := h.made c hc (by rwa [IOService.made, hcaller])
        obtain ⟨i, hi⟩ := List.mem_iff_getElem?.mp hv
        have hlt : i < s.threadPool.length := (List.getElem?_eq_some_iff.mp hi).1
        have hset := List.getElem?_eq_getElem (l := s.threadPool.set j { w with joinable := false })
          (by simpa using hlt)
        obtain ⟨v', hv', hcontext, -⟩ := hget i _ hset
        obtain rfl := Option.some.inj (hi.symm.trans hv')
        exact ⟨_, List.mem_of_getElem? hset, hcontext⟩
      joining := fun i hi => by
        obtain rfl := RunCaller.joining.inj hi
        refine ⟨(h.joining j hcaller).1, fun k v hk hv => ?_⟩
        obtain ⟨v', hv', -, hsame, hjoinable⟩ := hget k v hv
        rcases Nat.lt_succ_iff_lt_or_eq.mp hk with hk | rfl
        · obtain ⟨hnone, hjoined⟩ := (h.joining j hcaller).2 k v' hk hv'
          exact ⟨hsame.trans hnone, hjoinable.elim (fun heq => absurd heq (Nat.ne_of_lt hk))
            fun hsame => hsame.trans hjoined⟩
        · obtain rfl := Option.some.inj (hw.symm.trans hv')
          refine ⟨hsame.trans hloop, ?_⟩
          rw [List.getElem?_set_self (List.getElem?_eq_some_iff.mp hw).1] at hv
          exact (Option.some.inj hv) ▸ rfl
      handlers := fun t b k hl => h.handlers t b k (hloops t b _ hl)
      stops := h.stops
      returned := fun hreturned => ⟨(h.returned hreturned).stopped, fun t b l hl =>
        (h.returned hreturned).waiting t b l (hloops t b l hl)⟩ }

/-- The threads run contexts of the pool. -/
theorem context_lt (h : Sound s) (hpool : 0 < s.poolSize) (hu : s.loopOf u = some (c, loop)) :
    c < s.poolSize := by
  cases u with
  | caller => exact (loopOf_caller.mp hu).1 ▸ hpool
  | worker i =>
    obtain ⟨w, hw, rfl, -⟩ := loopOf_worker.mp hu
    exact (h.contexts w (List.mem_of_getElem? hw)).2

/-- Where a context has not been stopped, no call of `IOService::run` has returned. -/
theorem not_returned_of_live (h : Sound s) (hpool : 0 < s.poolSize)
    (hu : s.loopOf u = some (c, loop)) (hc : s.stopped c = false) : .returned ∉ s.trace := by
  intro hreturned
  rw [(h.returned hreturned).stopped c (h.context_lt hpool hu)] at hc
  cases hc

/-- **Every move of a thread** keeps the service sound. -/
theorem step (h : Sound s) (hpool : 0 < s.poolSize) (hstep : Step s a t) : Sound t := by
  have hfirst : ∀ b < 0, s.stopped b = true := fun b hb => absurd hb (Nat.not_lt_zero b)
  cases hstep with
  | run => exact h.run
  | spawn hcaller => exact h.spawn hcaller
  | start hloop hc =>
    have hlive := h.not_returned_of_live hpool hloop hc
    exact h.setLoop hloop nofun fun hreturned => absurd hreturned hlive
  | @signal u error hloop hc hwaits =>
    -- the handler is started on a context that is not stopped, so `run` has not returned
    have hlive := h.not_returned_of_live hpool hloop hc
    have hwith : ∀ n, Sound { s with signalWaits := n } := fun n =>
      { h with returned := fun hreturned => absurd hreturned hlive }
    unfold onSignal
    cases error with
    | true =>
      exact (hwith (s.signalWaits - 1 + 1)).setLoop hloop (x := .handler none) nofun
        fun hreturned => absurd hreturned hlive
    | false =>
      refine (hwith (s.signalWaits - 1)).setLoop hloop (x := .handler (some 0)) ?_
        fun hreturned => absurd hreturned hlive
      rintro k ⟨⟩
      exact hfirst
  | callStop hloop =>
    refine h.setLoop hloop ?_ fun hreturned => absurd hreturned (h.not_returned hloop)
    rintro k ⟨⟩
    exact hfirst
  | stop =>
    refine h.withStops fun k hk => ?_
    rcases List.mem_append.mp hk with hk | hk
    · exact h.stops k hk
    · obtain rfl := List.mem_singleton.mp hk
      exact hfirst
  | goOn hcall => exact h.stopFrom hcall
  | finish hloop => exact h.setLoop hloop nofun fun _ => rfl
  | @throw u c hloop =>
    cases u with
    | caller => exact h.leaveRun nofun
    | worker i =>
      exact { h with returned := fun hreturned => absurd hreturned (h.not_returned hloop) }
  | leave hloop hc => exact h.leaveLoop hloop hc
  | join hcaller hw _ hloop => exact h.join hcaller hw hloop
  | joinThrows => exact h.leaveRun nofun
  | joined hcaller hw => exact h.leaveRun fun _ => h.joined hcaller hw

end Sound

/-- What no move takes back. -/
structure Keeps (s t : IOService) : Prop where
  poolSize : t.poolSize = s.poolSize
  stopped : ∀ c, s.stopped c = true → t.stopped c = true
  terminated : t.terminated = s.terminated

theorem setLoop_keeps (s : IOService) (u : ThreadId) (loop : EventLoop) :
    Keeps s (s.setLoop u loop) := by
  cases u <;> exact ⟨rfl, fun _ => id, rfl⟩

theorem setStop_keeps (s : IOService) (call : StopCall) (k : Option ContextId) :
    Keeps s (s.setStop call k) := by
  cases call with
  | inHandler u => exact setLoop_keeps s u _
  | outside i => cases k <;> exact ⟨rfl, fun _ => id, rfl⟩

theorem stopFrom_keeps (s : IOService) (call : StopCall) (k : ContextId) :
    Keeps s (s.stopFrom call k) := by
  unfold stopFrom
  split
  · obtain ⟨hsize, hstopped, hterminated⟩ := setStop_keeps
      { s with stopped := Function.update s.stopped k true } call (some (k + 1))
    exact ⟨hsize, fun c hc => hstopped c (stopped_update k hc), hterminated⟩
  · exact setStop_keeps s call none

theorem Step.keeps (h : Step s a t) (hguard : ∀ i, a ≠ .throw (.worker i)) : Keeps s t := by
  cases h with
  | start | callStop | finish => exact setLoop_keeps s _ _
  | @signal u error =>
    unfold onSignal
    cases error with
    | true => exact { setLoop_keeps { s with signalWaits := s.signalWaits - 1 + 1 } u _ with }
    | false => exact { setLoop_keeps { s with signalWaits := s.signalWaits - 1 } u _ with }
  | goOn => exact stopFrom_keeps s _ _
  | @throw u =>
    cases u with
    | caller => exact ⟨rfl, fun _ => id, rfl⟩
    | worker i => exact absurd rfl (hguard i)
  | @leave u => cases u <;> exact ⟨rfl, fun _ => id, rfl⟩
  | @spawn i =>
    unfold IOService.spawn
    split <;> exact ⟨rfl, fun _ => id, rfl⟩
  | _ => exact ⟨rfl, fun _ => id, rfl⟩

theorem Step.poolSize (h : Step s a t) : t.poolSize = s.poolSize := by
  by_cases ha : ∃ i, a = .throw (.worker i)
  · obtain ⟨i, rfl⟩ := ha
    cases h
    rfl
  · exact (h.keeps fun i hi => ha ⟨i, hi⟩).poolSize

section Runs

variable {n : Nat} {l : List Label}

/-- The invariants of all runs. -/
theorem sound_run (hn : 0 < n) (hl : (machine n).run (machine n).init l = some s) :
    Sound s ∧ s.poolSize = n := by
  refine Machine.run_invariant (I := fun s => Sound s ∧ s.poolSize = n) ?_ hl ⟨.init n, rfl⟩
  rintro s a t ⟨h, rfl⟩ ht
  have hstep := Step.of_step ht
  exact ⟨h.step hn hstep, hstep.poolSize⟩

/-- **`IOService::run` returns to a quiet program.** From then on, and whatever is called later, all
contexts are stopped and no thread runs a handler. -/
theorem returned_quiet (hn : 0 < n) (hl : (machine n).run (machine n).init l = some s)
    (hreturned : .returned ∈ s.trace) : s.Quiet :=
  (sound_run hn hl).1.returned hreturned

/-- Two threads; a handler of the second one's context stops them. -/
def stopRun : List Label :=
  [.run, .spawn, .spawn, .start (.worker 0), .callStop (.worker 0),
    .goOn (.inHandler (.worker 0)), .goOn (.inHandler (.worker 0)), .leave .caller,
    .goOn (.inHandler (.worker 0)), .finish (.worker 0), .leave (.worker 0), .join, .join]

theorem returned_quiet_stopped : ∃ s, (machine 2).run (machine 2).init stopRun = some s ∧
    s.trace = [.called, .returned] ∧ s.Quiet :=
  ⟨_, rfl, rfl, returned_quiet (n := 2) (l := stopRun) (by decide) rfl (by decide)⟩

end Runs

end IOService

end Asyncgi
