import Asyncgi.Service.IOService

/-!
# One thread for each context

The objects of the program that share a context are used by its handlers without locks, so no two
threads may run handlers of one context. `IOService::run` never empties `threadPool_`: in the first
call every context has a thread of its own, and a call after that makes further threads.

## Main definitions

* `IOService.Exclusive`: no two threads run handlers of one context
* `IOService.InTurn`: the threads that the first call of `IOService::run` has made
* `IOService.PoolStep`: what a move does to the threads of the pool

## Main results

* `IOService.handlers_exclusive`: that is so as long as no exception leaves `IOService::run`
* `IOService.returns_once`: with several contexts `IOService::run` returns once at most
-/

namespace Asyncgi

namespace IOService

variable {s t : IOService} {a : Label}

theorem map_modify {α β : Type*} {f : α → α} {g : α → β} (hf : ∀ b, g (f b) = g b) (l : List α)
    (i : Nat) : (l.modify i f).map g = l.map g := by
  induction l generalizing i with
  | nil => rw [List.modify_nil]
  | cons b l ih =>
    cases i with
    | zero => rw [List.modify_zero_cons, List.map_cons, hf, List.map_cons]
    | succ i => rw [List.modify_succ_cons, List.map_cons, ih, List.map_cons]

theorem map_set_same {α β : Type*} {g : α → β} {l : List α} {i : Nat} {b x : α}
    (hb : l[i]? = some b) (hg : g x = g b) : (l.set i x).map g = l.map g := by
  obtain ⟨hlt, rfl⟩ := List.getElem?_eq_some_iff.mp hb
  refine List.ext_getElem? fun j => ?_
  rw [List.map_set, hg, List.getElem?_set]
  split
  next hj =>
    subst hj
    simp [hlt]
  next => rfl

/-! ## What a move does to the pool -/

/-- The threads of the pool are the same, apart from their loops. -/
structure SameThreads (s t : IOService) : Prop where
  contexts : t.threadPool.map Worker.context = s.threadPool.map Worker.context
  joinable : t.threadPool.map Worker.joinable = s.threadPool.map Worker.joinable
  made : t.made = s.made
  outside : t.caller = .outside ↔ s.caller = .outside
  joining : ∀ j, s.caller = .joining j → t.caller = .joining j
  first : ∀ j, t.caller = .joining j → s.caller = .joining j ∨ j = 0
  trace : t.trace = s.trace

namespace SameThreads

variable {u : ThreadId} {c : ContextId} {loop : EventLoop} {call : StopCall} {k : ContextId}

theorem of_eq (hpool : t.threadPool = s.threadPool) (hcaller : t.caller = s.caller)
    (hsize : t.poolSize = s.poolSize) (htrace : t.trace = s.trace) : SameThreads s t where
  contexts := by rw [hpool]
  joinable := by rw [hpool]
  made := by rw [IOService.made, hcaller, hsize, IOService.made]
  outside := by rw [hcaller]
  joining _ h := hcaller ▸ h
  first _ h := Or.inl (hcaller ▸ h)
  trace := htrace

theorem setWorker (s : IOService) (i : Nat) (x : Option EventLoop) :
    SameThreads s (s.setWorker i x) where
  contexts := map_modify (f := fun w : Worker => { w with loop := x }) (fun _ => rfl) _ _
  joinable := map_modify (f := fun w : Worker => { w with loop := x }) (fun _ => rfl) _ _
  made := rfl
  outside := Iff.rfl
  joining _ h := h
  first _ h := Or.inl h
  trace := rfl

/-- The caller is in the loop of the first context, and goes on there or leaves it. -/
theorem withCaller {caller : RunCaller} (hs : s.caller = .running loop)
    (hcaller : caller = .joining 0 ∨ ∃ loop', caller = .running loop') :
    SameThreads s { s with caller := caller } where
  contexts := rfl
  joinable := rfl
  made := by
    unfold IOService.made
    rw [hs]
    rcases hcaller with rfl | ⟨_, rfl⟩ <;> rfl
  outside := by
    rw [hs]
    rcases hcaller with rfl | ⟨_, rfl⟩ <;> exact ⟨nofun, nofun⟩
  joining j h := by
    rw [hs] at h
    cases h
  first j h := by
    rcases hcaller with rfl | ⟨_, rfl⟩
    · exact Or.inr (RunCaller.joining.inj h).symm
    · cases h
  trace := rfl

theorem setLoop (hu : s.loopOf u = some (c, loop)) (loop' : EventLoop) :
    SameThreads s (s.setLoop u loop') := by
  cases u with
  | caller => exact withCaller (loopOf_caller.mp hu).2 (Or.inr ⟨loop', rfl⟩)
  | worker i => exact setWorker s i _

theorem leaveLoop (hu : s.loopOf u = some (c, loop)) : SameThreads s (s.leaveLoop u) := by
  cases u with
  | caller => exact withCaller (loopOf_caller.mp hu).2 (Or.inl rfl)
  | worker i => exact setWorker s i _

theorem setStop (hk : s.stopAt call = some k) (x : Option ContextId) :
    SameThreads s (s.setStop call x) := by
  cases call with
  | inHandler u =>
    simp only [IOService.stopAt] at hk
    split at hk
    next hloop => exact setLoop hloop _
    next => cases hk
  | outside i => cases x <;> exact of_eq rfl rfl rfl rfl

theorem stopFrom (hk : s.stopAt call = some k) : SameThreads s (s.stopFrom call k) := by
  unfold IOService.stopFrom
  split
  · have hk' : { s with stopped := Function.update s.stopped k true }.stopAt call = some k := by
      cases call <;> exact hk
    exact { setStop hk' (some (k + 1)) with }
  · exact setStop hk none

end SameThreads

/-- What a move does to the threads of the pool. -/
inductive PoolStep (s : IOService) : Label → IOService → Prop
  | same {b v} (hsame : SameThreads s v) : PoolStep s b v
  | run (hcaller : s.caller = .outside) : PoolStep s .run s.run
  | made {i} (hcaller : s.caller = .spawning i) (hi : i < s.poolSize) : PoolStep s .spawn
      { s with threadPool := s.threadPool ++ [{ context := i }], caller := .spawning (i + 1) }
  | allMade {i} (hcaller : s.caller = .spawning i) (hi : s.poolSize ≤ i) :
      PoolStep s .spawn { s with caller := .running .waiting }
  | threw : PoolStep s (.throw .caller) (s.leaveRun .threw)
  | join {j w} (hcaller : s.caller = .joining j) (hw : s.threadPool[j]? = some w)
      (hjoinable : w.joinable = true) :
      PoolStep s .join { s with
        threadPool := s.threadPool.set j { w with joinable := false }
        caller := .joining (j + 1) }
  | joinThrows {j w} (hcaller : s.caller = .joining j) (hw : s.threadPool[j]? = some w)
      (hjoinable : w.joinable = false) : PoolStep s .join (s.leaveRun .threw)
  | joined {j} (hcaller : s.caller = .joining j) (hw : s.threadPool[j]? = none) :
      PoolStep s .join (s.leaveRun .returned)

theorem Step.pool (h : Step s a t) : PoolStep s a t := by
  cases h with
  | run hcaller => exact .run hcaller
  | @spawn i hcaller =>
    unfold IOService.spawn
    split
    next hi => exact .made hcaller hi
    next hi => exact .allMade hcaller (Nat.le_of_not_lt hi)
  | start hloop | callStop hloop | finish hloop => exact .same (.setLoop hloop _)
  | @signal u error hloop =>
    unfold onSignal
    cases error with
    | true =>
      have hsame := SameThreads.setLoop (s := { s with signalWaits := s.signalWaits - 1 + 1 }) hloop
        (.handler none)
      exact .same { hsame with }
    | false =>
      have hsame := SameThreads.setLoop (s := { s with signalWaits := s.signalWaits - 1 }) hloop
        (.handler (some 0))
      exact .same { hsame with }
  | stop => exact .same (.of_eq rfl rfl rfl rfl)
  | goOn hcall => exact .same (.stopFrom hcall)
  | @throw u =>
    cases u with
    | caller => exact .threw
    | worker i => exact .same (.of_eq rfl rfl rfl rfl)
  | leave hloop => exact .same (.leaveLoop hloop)
  | join hcaller hw hjoinable => exact .join hcaller hw hjoinable
  | joinThrows hcaller hw hjoinable => exact .joinThrows hcaller hw hjoinable
  | joined hcaller hw => exact .joined hcaller hw

theorem Step.trace_subset (h : Step s a t) {event : RunEvent} (hs : event ∈ s.trace) :
    event ∈ t.trace := by
  cases h.pool with
  | same hsame =>
    rw [hsame.trace]
    exact hs
  | made | allMade | join => exact hs
  | run | threw | joinThrows | joined => exact List.mem_append_left _ hs

/-! ## The first call of `IOService::run` -/

/-- No call of `IOService::run` has been left: the threads are those that it makes, each for a
context of its own, and it has not joined those that it has still to join. -/
structure InTurn (s : IOService) : Prop where
  distinct : (s.threadPool.map Worker.context).Nodup
  outside : s.caller = .outside → s.threadPool = [] ∧ s.trace = []
  called : s.caller ≠ .outside → .called ∈ s.trace
  made : ∀ w ∈ s.threadPool, w.context < s.made
  joinable : ∀ i w, s.threadPool[i]? = some w → (∀ j, s.caller = .joining j → j ≤ i) →
    w.joinable = true

namespace InTurn

theorem init (n : Nat) : InTurn { poolSize := n } where
  distinct := List.nodup_nil
  outside _ := ⟨rfl, rfl⟩
  called h := absurd rfl h
  made := nofun
  joinable := nofun

theorem same (h : InTurn s) (hsame : SameThreads s t) : InTurn t where
  distinct := by
    rw [hsame.contexts]
    exact h.distinct
  outside ht := by
    obtain ⟨hnil, htrace⟩ := h.outside (hsame.outside.mp ht)
    have hcontexts := hsame.contexts
    rw [hnil] at hcontexts
    exact ⟨List.map_eq_nil_iff.mp hcontexts, hsame.trace.trans htrace⟩
  called ht := by
    rw [hsame.trace]
    exact h.called fun hs => ht (hsame.outside.mpr hs)
  made w hw := by
    have hmem : w.context ∈ s.threadPool.map Worker.context := by
      rw [← hsame.contexts]
      exact List.mem_map_of_mem hw
    obtain ⟨v, hv, hcontext⟩ := List.mem_map.mp hmem
    rw [hsame.made, ← hcontext]
    exact h.made v hv
  joinable i w hw hj := by
    have hget : (s.threadPool.map Worker.joinable)[i]? = some w.joinable := by
      rw [← hsame.joinable, List.getElem?_map, hw]
      rfl
    rw [List.getElem?_map] at hget
    obtain ⟨v, hv, hjoinable⟩ := Option.map_eq_some_iff.mp hget
    rw [← hjoinable]
    exact h.joinable i v hv fun j hs => hj j (hsame.joining j hs)

/-- Each thread is joined once. -/
theorem joinable_next (h : InTurn s) {j : Nat} {w : Worker} (hcaller : s.caller = .joining j)
    (hw : s.threadPool[j]? = some w) : w.joinable = true := by
  refine h.joinable j w hw fun i hi => ?_
  rw [hcaller] at hi
  exact Nat.le_of_eq (RunCaller.joining.inj hi).symm

/-- Each move keeps the threads of the first call, or is the return of it. -/
theorem step (h : InTurn s) (hsound : Sound s) (hstep : Step s a t)
    (hguard : a ≠ .throw .caller) : .returned ∈ t.trace ∨ InTurn t := by
  cases hstep.pool with
  | same hsame => exact Or.inr (h.same hsame)
  | run hcaller =>
    obtain ⟨hnil, -⟩ := h.outside hcaller
    refine Or.inr ⟨?_, fun h => (by cases h),
      fun _ => List.mem_append_right _ (List.mem_singleton_self _), ?_, ?_⟩
    · exact h.distinct
    · intro w hw
      have hw : w ∈ s.threadPool := hw
      rw [hnil] at hw
      cases hw
    · intro i w hw
      have hw : s.threadPool[i]? = some w := hw
      rw [hnil] at hw
      cases hw
  | @made i hcaller hi =>
    have hmade : s.made = i := by rw [IOService.made, hcaller]
    have hcalled : .called ∈ s.trace := h.called fun h => by rw [hcaller] at h; cases h
    refine Or.inr ⟨?_, fun h => (by cases h), fun _ => hcalled, ?_, ?_⟩
    · rw [List.map_append, List.nodup_append]
      refine ⟨h.distinct, List.nodup_singleton _, ?_⟩
      intro c hc d hd
      obtain ⟨w, hw, rfl⟩ := List.mem_map.mp hc
      obtain rfl := List.mem_singleton.mp hd
      exact Nat.ne_of_lt (hmade ▸ h.made w hw)
    · intro w hw
      show w.context < i + 1
      rcases List.mem_append.mp hw with hw | hw
      · exact Nat.lt_succ_of_lt (hmade ▸ h.made w hw)
      · obtain rfl := List.mem_singleton.mp hw
        exact Nat.lt_succ_self _
    · intro k w hw _
      rcases List.mem_append.mp (List.mem_of_getElem? hw) with hmem | hmem
      · obtain ⟨j, hj⟩ := List.mem_iff_getElem?.mp hmem
        exact h.joinable j w hj fun j hj => by
          rw [hcaller] at hj
          cases hj
      · obtain rfl := List.mem_singleton.mp hmem
        rfl
  | @allMade i hcaller hi =>
    have hcalled : .called ∈ s.trace := h.called fun h => by rw [hcaller] at h; cases h
    refine Or.inr ⟨h.distinct, fun h => (by cases h), fun _ => hcalled,
      fun w hw => (hsound.contexts w hw).2, fun k w hw _ => ?_⟩
    refine h.joinable k w hw fun j hj => ?_
    rw [hcaller] at hj
    cases hj
  | threw => exact absurd rfl hguard
  | @join j w hcaller hw hjoinable =>
    have hcalled : .called ∈ s.trace := h.called fun h => by rw [hcaller] at h; cases h
    refine Or.inr ⟨?_, fun h => (by cases h), fun _ => hcalled, ?_, ?_⟩
    · have hcontexts := map_set_same (g := Worker.context) (x := { w with joinable := false }) hw
        rfl
      exact hcontexts.symm ▸ h.distinct
    · intro v hv
      rcases List.mem_or_eq_of_mem_set hv with hv | rfl
      · exact (hsound.contexts v hv).2
      · exact (hsound.contexts w (List.mem_of_getElem? hw)).2
    · intro k v hv hk
      have hlt : j + 1 ≤ k := hk (j + 1) rfl
      have hv : (s.threadPool.set j { w with joinable := false })[k]? = some v := hv
      rw [List.getElem?_set_ne (Nat.ne_of_lt hlt)] at hv
      refine h.joinable k v hv fun i hi => ?_
      rw [hcaller] at hi
      obtain rfl := RunCaller.joining.inj hi
      exact Nat.le_of_succ_le hlt
  | joinThrows hcaller hw hjoinable =>
    rw [h.joinable_next hcaller hw] at hjoinable
    cases hjoinable
  | joined => exact Or.inl (List.mem_append_right _ (List.mem_singleton_self _))

/-- The handlers of one context are run by one thread. -/
theorem exclusive (h : InTurn s) (hsound : Sound s) {u v : ThreadId} {c : ContextId}
    {x y : EventLoop} (hu : s.loopOf u = some (c, x)) (hv : s.loopOf v = some (c, y)) : u = v := by
  -- the first context is run by the caller only
  have hworker : ∀ {i loop}, s.loopOf (.worker i) ≠ some (0, loop) := by
    intro i loop hloop
    obtain ⟨w, hw, hcontext, -⟩ := loopOf_worker.mp hloop
    exact Nat.ne_of_gt (hsound.contexts w (List.mem_of_getElem? hw)).1 hcontext
  cases u with
  | caller =>
    obtain ⟨rfl, -⟩ := loopOf_caller.mp hu
    cases v with
    | caller => rfl
    | worker j => exact absurd hv hworker
  | worker i =>
    cases v with
    | caller =>
      obtain ⟨rfl, -⟩ := loopOf_caller.mp hv
      exact absurd hu hworker
    | worker j =>
      obtain ⟨w, hw, rfl, -⟩ := loopOf_worker.mp hu
      obtain ⟨w', hw', hcontext, -⟩ := loopOf_worker.mp hv
      have hi : i < (s.threadPool.map Worker.context).length := by
        rw [List.length_map]
        exact (List.getElem?_eq_some_iff.mp hw).1
      have hget : (s.threadPool.map Worker.context)[i]? =
          (s.threadPool.map Worker.context)[j]? := by
        rw [List.getElem?_map, hw, List.getElem?_map, hw', Option.map_some, Option.map_some,
          hcontext]
      exact congrArg ThreadId.worker ((List.getElem?_inj hi h.distinct).mp hget)

end InTurn

/-- No two threads run handlers of one context. -/
def Exclusive (s : IOService) : Prop :=
  ∀ u v c x y, s.loopOf u = some (c, .handler x) → s.loopOf v = some (c, .handler y) → u = v

section Runs

variable {n : Nat} {l : List Label}

theorem inTurn_run (hn : 0 < n) (hguard : ∀ a ∈ l, a ≠ .throw .caller)
    (hl : (machine n).run (machine n).init l = some s) :
    (Sound s ∧ s.poolSize = n) ∧ (.returned ∈ s.trace ∨ InTurn s) := by
  have hlaw := (Machine.eachStep_of_forall (M := machine n) (R := fun _ _ _ => True)
    (fun _ _ _ => trivial) (machine n).init l).restrict hguard
  refine (hlaw.mono fun _ _ _ h => h.1).invariant (G := fun _ a => a ≠ .throw .caller)
    (J := fun s => (Sound s ∧ s.poolSize = n) ∧ (.returned ∈ s.trace ∨ InTurn s)) ?_ hl
    ⟨⟨.init n, rfl⟩, Or.inr (.init n)⟩
  rintro s a t ⟨⟨hsound, rfl⟩, h⟩ ha ht
  have hstep := Step.of_step ht
  refine ⟨⟨hsound.step hn hstep, hstep.poolSize⟩, ?_⟩
  rcases h with hreturned | h
  · exact Or.inl (hstep.trace_subset hreturned)
  · exact h.step hsound hstep ha

/-- **No two threads run handlers of one context**, in any run in which no exception leaves
`IOService::run`. -/
theorem handlers_exclusive (hn : 0 < n) (hguard : ∀ a ∈ l, a ≠ .throw .caller)
    (hl : (machine n).run (machine n).init l = some s) : s.Exclusive := by
  intro u v c x y hu hv
  obtain ⟨⟨hsound, -⟩, hreturned | h⟩ := inTurn_run hn hguard hl
  -- after the return of the first call no handler is run any more
  · exact absurd hreturned (hsound.not_returned hu)
  · exact h.exclusive hsound hu hv

/-- Two threads run handlers, each of its own context. -/
theorem handlers_exclusive_two : ∃ s, (machine 2).run (machine 2).init
      [.run, .spawn, .spawn, .start .caller, .start (.worker 0)] = some s ∧
    s.loopOf .caller = some (0, .handler none) ∧ s.loopOf (.worker 0) = some (1, .handler none) ∧
      s.Exclusive :=
  ⟨_, rfl, rfl, rfl, handlers_exclusive (n := 2)
    (l := [.run, .spawn, .spawn, .start .caller, .start (.worker 0)]) (by decide) (by decide) rfl⟩

/-- An exception leaves `IOService::run`, which is called again: a second thread runs the second
context. -/
theorem handlers_overlap : ∃ s, (machine 2).run (machine 2).init
      [.run, .spawn, .spawn, .start .caller, .throw .caller, .run, .spawn, .spawn,
        .start (.worker 0), .start (.worker 1)] = some s ∧ ¬ s.Exclusive := by
  refine ⟨_, rfl, fun h => ?_⟩
  have heq := h (.worker 0) (.worker 1) 1 none none rfl rfl
  exact absurd heq (by decide)

end Runs

/-! ## Further calls of `IOService::run` -/

/-- `IOService::run` has returned once at most; where it has, the first thread is one that has been
joined, so that no later call gets past it. -/
structure Once (s : IOService) : Prop where
  count : s.trace.count .returned ≤ 1
  joined : .returned ∈ s.trace → (s.threadPool.map Worker.joinable)[0]? = some false ∧
    ∀ j, s.caller = .joining j → j = 0

namespace Once

theorem init (n : Nat) : Once { poolSize := n } where
  count := Nat.zero_le 1
  joined := nofun

/-- `IOService::run` is called, or left with an exception. -/
theorem append (h : Once s) {e : RunEvent} (he : e ≠ .returned)
    (htrace : t.trace = s.trace ++ [e]) (hpool : t.threadPool = s.threadPool)
    (hcaller : ∀ j, t.caller ≠ .joining j) : Once t where
  count := by
    rw [htrace, List.count_append, List.count_singleton, beq_eq_false_iff_ne.mpr he]
    exact h.count
  joined hreturned := by
    have hmem : .returned ∈ s.trace := by
      rw [htrace] at hreturned
      exact (List.mem_append.mp hreturned).resolve_right fun hmem =>
        he (List.mem_singleton.mp hmem).symm
    rw [hpool]
    exact ⟨(h.joined hmem).1, fun j hj => absurd hj (hcaller j)⟩

theorem step (h : Once s) (hsound : Sound s) (hn : 2 ≤ s.poolSize) (hstep : Step s a t) :
    Once t := by
  cases hstep.pool with
  | same hsame =>
    refine ⟨hsame.trace ▸ h.count, fun hreturned => ?_⟩
    rw [hsame.trace] at hreturned
    obtain ⟨hfirst, hj⟩ := h.joined hreturned
    exact ⟨hsame.joinable ▸ hfirst, fun j ht => (hsame.first j ht).elim (hj j) id⟩
  | run => exact h.append (e := .called) (by decide) rfl rfl fun j hj => by cases hj
  | made =>
    refine ⟨h.count, fun hreturned => ⟨?_, fun j hj => by cases hj⟩⟩
    have hfirst := (h.joined hreturned).1
    rw [List.map_append, List.getElem?_append_left (List.getElem?_eq_some_iff.mp hfirst).1]
    exact hfirst
  | allMade =>
    exact ⟨h.count, fun hreturned => ⟨(h.joined hreturned).1, fun j hj => by cases hj⟩⟩
  | threw | joinThrows =>
    exact h.append (e := .threw) (by decide) rfl rfl fun j hj => by cases hj
  | @join j w hcaller hw hjoinable =>
    refine ⟨h.count, fun hreturned => ?_⟩
    obtain ⟨hfirst, hj⟩ := h.joined hreturned
    obtain rfl := hj j hcaller
    rw [List.getElem?_map, hw, Option.map_some, hjoinable] at hfirst
    cases hfirst
  | @joined j hcaller hw =>
    -- there is a thread, and this call has got past it, so it is the first one to do so
    have hlen : s.threadPool.length ≤ j := List.getElem?_eq_none_iff.mp hw
    obtain ⟨w, hmem, -⟩ := hsound.made 1 Nat.zero_lt_one (by rwa [IOService.made, hcaller])
    have hpos : 0 < s.threadPool.length := List.length_pos_of_mem hmem
    have hnot : .returned ∉ s.trace := by
      intro hreturned
      have hzero := (h.joined hreturned).2 j hcaller
      omega
    constructor
    · show (s.trace ++ [RunEvent.returned]).count .returned ≤ 1
      rw [List.count_append, List.count_eq_zero.mpr hnot]
      decide
    · refine fun _ => ⟨?_, fun i hi => by cases hi⟩
      have hget : s.threadPool[0]? = some s.threadPool[0] := List.getElem?_eq_getElem hpos
      have hjoined := ((hsound.joining j hcaller).2 0 _ (by omega) hget).2
      show (s.threadPool.map Worker.joinable)[0]? = some false
      rw [List.getElem?_map, hget, Option.map_some, hjoined]

end Once

/-- **`IOService::run` returns once**, where there are several contexts: a later call throws, since
it joins the threads of the first one again. -/
theorem returns_once {n : Nat} {l : List Label} (hn : 2 ≤ n)
    (hl : (machine n).run (machine n).init l = some s) : s.trace.count .returned ≤ 1 := by
  have hpos : 0 < n := Nat.lt_of_lt_of_le Nat.zero_lt_two hn
  have hall := Machine.run_invariant
    (I := fun s => (Sound s ∧ s.poolSize = n) ∧ Once s) ?_ hl ⟨⟨.init n, rfl⟩, .init n⟩
  · exact hall.2.count
  · rintro s a t ⟨⟨hsound, rfl⟩, h⟩ ht
    have hstep := Step.of_step ht
    exact ⟨⟨hsound.step hpos hstep, hstep.poolSize⟩, h.step hsound hn hstep⟩

/-- The service is run again after it has been stopped. -/
theorem returns_once_again : ∃ s, (machine 2).run (machine 2).init
      (stopRun ++ [.run, .spawn, .spawn, .leave .caller, .join]) = some s ∧
    s.trace = [.called, .returned, .called, .threw] ∧ s.trace.count .returned ≤ 1 :=
  ⟨_, rfl, rfl, returns_once (n := 2)
    (l := stopRun ++ [.run, .spawn, .spawn, .leave .caller, .join]) (by decide) rfl⟩

end IOService

end Asyncgi
