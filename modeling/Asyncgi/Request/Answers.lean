import Asyncgi.Runtime.Stack
import Asyncgi.Transition.Ledger

/-!
# The answers to requests

The connection keeps a ledger of its answers: the first answer that is sent through the responder
of a request, while the request is the one delivered last, is entered for the request; all else
that is sent is dropped.

## Main definitions

* `Server.Books v L`: the ledger `L` is what the requests of `v` have been answered
* `Server.Moves`: what a step of the runtime does to the requests

## Main results

* `Server.Books.send`: sending through a responder is recording in the ledger
* `answered_at_most_once`: each request is answered at most once, through its own responder, and
  `isSent` tells when it is not answered yet
* `first_send_transmits_iff`: in a run the first send of every request is transmitted exactly when
  no request is sent for after a later one was delivered
-/

namespace Asyncgi

namespace Server

variable {v w : Server} {L : Ledger RequestId Answer} {r : RequestId} {answer : Answer}

/-- The requests of `v` have the answers of the ledger. -/
structure Books (v : Server) (L : Ledger RequestId Answer) : Prop where
  answers : v.answers = L.entries.map fun e => { request := e.1, through := e.1, answer := e.2 }
  valid : ∀ r < v.requests, v.isValid r = true ↔ L.IsFree r
  context : ∀ r, v.responseContext = some r → v.responseSender = some r ∧ r + 1 = v.requests
  delivered : ∀ r, ¬ L.IsFree r → r < v.requests
  called : ∀ r, ¬ L.IsFree r → ∃ answer, (r, answer) ∈ v.calls

theorem books_init : Books {} .empty where
  answers := rfl
  valid _ hr := absurd hr (Nat.not_lt_zero _)
  context _ h := by cases h
  delivered _ h := absurd (by simp [Ledger.IsFree, Ledger.empty]) h
  called _ h := absurd (by simp [Ledger.IsFree, Ledger.empty]) h

namespace Books

theorem current_lt (h : v.Books L) (hr : v.responseContext = some r) : r < v.requests :=
  Nat.lt_of_succ_le (Nat.le_of_eq (h.context r hr).2)

/-- The response of the current request is valid as long as the request has no answer. -/
theorem valid_current (h : v.Books L) (hr : v.responseContext = some r) :
    v.isValid r = true ↔ L.IsFree r := h.valid r (h.current_lt hr)

/-- A new request has no answer. -/
theorem deliver (h : v.Books L) : v.deliver.Books L where
  answers := h.answers
  valid r hr := by
    rw [deliver_isValid]
    by_cases hnew : r = v.requests
    · subst hnew
      rw [Function.update_self]
      refine iff_of_true rfl ?_
      by_contra hold
      exact Nat.lt_irrefl _ (h.delivered _ hold)
    · rw [Function.update_of_ne hnew]
      exact h.valid r (Nat.lt_of_le_of_ne (Nat.le_of_lt_succ hr) hnew)
  context r hr := by
    obtain rfl : v.requests = r := Option.some.inj hr
    exact ⟨rfl, rfl⟩
  delivered r hr := Nat.lt_succ_of_lt (h.delivered r hr)
  called := h.called

theorem destroy (h : v.Books L) : v.destroy.Books L where
  answers := h.answers
  valid := h.valid
  context r hr := by cases hr
  delivered := h.delivered
  called := h.called

/-- The ledger after a send through a responder of `r`. -/
def sendTo (v : Server) (L : Ledger RequestId Answer) (r : RequestId) (answer : Answer) :
    Ledger RequestId Answer :=
  if v.responseContext = some r then L.record r answer else L

theorem sendTo_extends : L.Extends (sendTo v L r answer) := by
  unfold sendTo
  split
  · exact L.extends_record r answer
  · exact Ledger.Extends.refl L

/-- A send that is dropped. -/
theorem drop (h : v.Books L) : ({ v with calls := v.calls ++ [(r, answer)] } : Server).Books L where
  answers := h.answers
  valid := h.valid
  context := h.context
  delivered := h.delivered
  called r' hr' := by
    obtain ⟨a, ha⟩ := h.called r' hr'
    exact ⟨a, List.mem_append_left _ ha⟩

/-- The responder of the current request reaches the request's own response. -/
theorem send_current (h : v.Books L) (hr : v.responseContext = some r) :
    Responder.send v r answer =
      if L.IsFree r then
        { v with
          calls := v.calls ++ [(r, answer)]
          isValid := Function.update v.isValid r false
          answers := v.answers ++ [{ request := r, through := r, answer := answer }] }
      else { v with calls := v.calls ++ [(r, answer)] } := by
  have hsender := (h.context r hr).1
  have hvalid := h.valid_current hr
  unfold Responder.send ResponseSender.send
  by_cases hfree : L.IsFree r
  · simp [hr, hsender, hfree, hvalid.mpr hfree]
  · have : v.isValid r = false := by
      rw [← Bool.not_eq_true, hvalid]
      exact hfree
    simp [hr, hsender, hfree, this]

/-- **Sending is recording.** -/
theorem send (h : v.Books L) : (Responder.send v r answer).Books (sendTo v L r answer) := by
  unfold sendTo
  by_cases hr : v.responseContext = some r
  · rw [if_pos hr, h.send_current hr]
    by_cases hfree : L.IsFree r
    · rw [if_pos hfree, Ledger.record_free hfree]
      have hlt := h.current_lt hr
      constructor
      · simp [Ledger.enter, h.answers]
      · intro r' hr'
        rw [Ledger.isFree_enter]
        by_cases heq : r' = r
        · simp [heq]
        · simpa [Function.update_of_ne heq, heq] using h.valid r' hr'
      · exact h.context
      · intro r' hr'
        rw [Ledger.isFree_enter, not_and_or, not_not] at hr'
        rcases hr' with hr' | rfl
        · exact h.delivered r' hr'
        · exact hlt
      · intro r' hr'
        rw [Ledger.isFree_enter, not_and_or, not_not] at hr'
        rcases hr' with hr' | rfl
        · obtain ⟨a, ha⟩ := h.called r' hr'
          exact ⟨a, List.mem_append_left _ ha⟩
        · exact ⟨answer, List.mem_append_right _ List.mem_cons_self⟩
    · rw [if_neg hfree, Ledger.record_taken hfree]
      exact h.drop
  · have hsend : Responder.send v r answer = { v with calls := v.calls ++ [(r, answer)] } :=
      if_neg hr
    rw [if_neg hr, hsend]
    exact h.drop

/-- A send through a responder of another request than the current one is dropped. -/
theorem send_other (hr : v.responseContext ≠ some r) :
    (Responder.send v r answer).answers = v.answers := by
  unfold Responder.send
  rw [if_neg hr]

/-- `isSent` is false while the request is the current one and has no answer. -/
theorem isSent_iff (h : v.Books L) :
    Responder.isSent v r = false ↔ v.responseContext = some r ∧ L.IsFree r := by
  unfold Responder.isSent
  by_cases hr : v.responseContext = some r
  · rw [if_pos hr, ResponseSender.isSent, (h.context r hr).1]
    simp [hr, h.valid_current hr]
  · simp [hr]

/-- `isSent` is false exactly when a send would be transmitted. -/
theorem isSent_iff_transmits (h : v.Books L) : Responder.isSent v r = false ↔
    (Responder.send v r answer).answers =
      v.answers ++ [{ request := r, through := r, answer := answer }] := by
  rw [h.isSent_iff]
  by_cases hr : v.responseContext = some r
  · rw [h.send_current hr]
    by_cases hfree : L.IsFree r <;> simp [hr, hfree]
  · simp [send_other hr, hr]

end Books

/-! ## The steps of the runtime -/

/-- What a step of the runtime does to the requests. -/
inductive Moves (v : Server) : Server → Prop
  | stay : Moves v v
  | deliver : Moves v v.deliver
  | destroy : Moves v v.destroy
  | send (r : RequestId) (answer : Answer) : Moves v (Responder.send v r answer)

theorem Moves.of_eq (h : w = v) : v.Moves w := h ▸ .stay

theorem Moves.sendError (v : Server) : v.Moves v.sendError := by
  unfold Server.sendError
  split
  · exact .send _ _
  · exact .stay

end Server

namespace State

variable {s t : State}

theorem releaseHeld_server (s : State) (p : PostId) :
    (TaskContext.releaseHeld s p).server = s.server := by
  unfold TaskContext.releaseHeld
  split <;> rfl

theorem release_server (s : State) (p : PostId) :
    (TaskContext.release s p).server = s.server := by
  unfold TaskContext.release
  split <;> rfl

/-- An exception is answered with the 500 where it is caught, and changes no request elsewhere. -/
theorem unwind_server (what : Option String) (catcher : Option Nat) (fs : List Frame) (s : State) :
    (unwind what catcher fs s).server = s.server ∨
      (unwind what catcher fs s).server = s.server.sendError := by
  induction fs generalizing s with
  | nil => exact Or.inl rfl
  | cons f fs ih =>
    cases f
    case user code =>
      unfold unwind
      split
      · exact Or.inl rfl
      · exact ih s
    case tryBlock r => exact Or.inr rfl
    case postAction p => exact Or.inl rfl
    case taskHandler p =>
      unfold unwind
      split
      · exact Or.inl (releaseHeld_server _ p)
      · have := ih (TaskContext.releaseHeld s p)
        rwa [releaseHeld_server] at this
    all_goals exact ih s

theorem moves_unwind (what : Option String) (catcher : Option Nat) (fs : List Frame) (s : State) :
    s.server.Moves (unwind what catcher fs s).server := by
  rcases unwind_server what catcher fs s with h | h
  · exact .of_eq h
  · exact h ▸ .sendError s.server

theorem moves_step {l : Label} (h : Step s l t) : s.server.Moves t.server := by
  cases h with
  | @processRequest processor =>
    cases processor <;> exact .deliver
  | destroyConnection => exact .destroy
  | ignored hd | callback hd | timeout hd | timedOut hd | futurePending hd | futureReady hd
  | futureConsumed hd | notConnected hd | task hd =>
    refine .of_eq ?_
    simp [hd.server_eq]
  | connected hd hv | refused hd hv | transferred hd _ _ hv | received hd hv | answered hd hv =>
    refine .of_eq ?_
    simp [hv.server, hd.server_eq]
  | discard => exact .of_eq (releaseHeld_server _ _)
  | release => exact .of_eq (release_server s _)
  | outside | finish | futureMadeReady | runProcessor | done | oneShotDone | tickDone
  | futureDone | responseDone => exact .stay
  | receiveDone _ hv => exact .of_eq hv.server
  | taskDone => exact .of_eq (releaseHeld_server _ _)
  | throw => exact moves_unwind _ _ _ (s.emit _)
  | @rethrown _ what fs => exact moves_unwind what none fs { s with stack := fs }
  | ret =>
    unfold returns
    split
    · exact .send _ _
    · exact .send _ _
    · exact .stay
  | command _ hc =>
    cases hc with
    | makeTimer =>
      unfold Timer.make
      split
      · exact .stay
      · split <;> exact .stay
    | send => exact .send _ _
    | releaseContext => exact .of_eq (release_server s _)
    | start | startPeriodic | stop | waitFuture | destroyTimer | makeClient | makeRequest
    | makeRequestThrows | disconnect | destroyClient | postTask | copyContext => exact .stay

end State

namespace Server

variable {v w : Server} {L : Ledger RequestId Answer} {s t : State}

/-- What a step does to the requests, it does to the ledger of their answers. -/
theorem Books.moves (h : v.Books L) (hm : v.Moves w) : ∃ M, L.Extends M ∧ w.Books M := by
  cases hm with
  | stay => exact ⟨L, .refl L, h⟩
  | deliver => exact ⟨L, .refl L, h.deliver⟩
  | destroy => exact ⟨L, .refl L, h.destroy⟩
  | send r answer => exact ⟨_, Books.sendTo_extends, h.send⟩

theorem Books.run (h : s.server.Books L) {l : List Label} (hl : runtime.run s l = some t) :
    ∃ M, L.Extends M ∧ t.server.Books M := by
  refine Machine.run_invariant (I := fun t => ∃ M, L.Extends M ∧ t.server.Books M) ?_ hl
    ⟨L, .refl L, h⟩
  rintro u a w ⟨M, hLM, hM⟩ hstep
  obtain ⟨N, hMN, hN⟩ := hM.moves (State.moves_step (Step.of_step hstep))
  exact ⟨N, hLM.trans hMN, hN⟩

/-- Requests are only added, and one that was replaced does not become the current one again. -/
structure Later (v w : Server) : Prop where
  requests : v.requests ≤ w.requests
  context : ∀ r < v.requests, w.responseContext = some r → v.responseContext = some r

theorem Later.refl (v : Server) : v.Later v := ⟨Nat.le_refl _, fun _ _ h => h⟩

theorem Later.moves {u : Server} (h : v.Later w) (hm : w.Moves u) : v.Later u := by
  cases hm with
  | stay => exact h
  | deliver =>
    refine ⟨Nat.le_succ_of_le h.requests, fun r hr hcontext => ?_⟩
    obtain rfl : w.requests = r := Option.some.inj hcontext
    exact absurd hr (Nat.not_lt.mpr h.requests)
  | destroy => exact ⟨h.requests, fun r _ hcontext => by cases hcontext⟩
  | send r answer =>
    obtain ⟨_, _, _, hsend⟩ := Responder.send_eq w r answer
    rw [hsend]
    exact ⟨h.requests, h.context⟩

theorem later_of_run {l : List Label} (hl : runtime.run s l = some t) :
    s.server.Later t.server :=
  Machine.run_invariant (I := fun t => s.server.Later t.server)
    (fun _ _ _ hu hstep => hu.moves (State.moves_step (Step.of_step hstep))) hl (.refl _)

theorem exists_books {s : State} (h : runtime.Reachable s) : ∃ L, s.server.Books L := by
  obtain ⟨l, hl⟩ := h
  obtain ⟨L, -, hL⟩ := Books.run (s := {}) books_init hl
  exact ⟨L, hL⟩

end Server

/-- **At most one answer per request, to the right request.** In every state a run reaches, each
request has been answered at most once, through its own responder; later steps only add answers,
and the 500 of an exception adds none to a request that has one; `isSent` is false exactly when a
send at that moment is transmitted; and once it is true it stays true. -/
theorem answered_at_most_once {k l : List Label} {s t : State}
    (hs : runtime.run runtime.init k = some s) (ht : runtime.run s l = some t) :
    (s.server.answers.map (·.request)).Nodup ∧
    (∀ a ∈ s.server.answers, a.through = a.request) ∧
    s.server.answers <+: t.server.answers ∧
    (∀ what, ∀ a ∈ s.server.answers, s.server.responseContext = some a.request →
      (Connection.catchException s what).server.answers = s.server.answers) ∧
    (∀ r answer, Responder.isSent s.server r = false ↔
      (Responder.send s.server r answer).answers =
        s.server.answers ++ [{ request := r, through := r, answer := answer }]) ∧
    ∀ r < s.server.requests, Responder.isSent s.server r = true →
      Responder.isSent t.server r = true := by
  obtain ⟨L, hL⟩ := Server.exists_books ⟨k, hs⟩
  obtain ⟨M, hLM, hM⟩ := hL.run ht
  refine ⟨?_, ?_, ?_, ?_, fun r answer => hL.isSent_iff_transmits, ?_⟩
  · rw [hL.answers, List.map_map]
    exact L.nodup
  · intro a ha
    rw [hL.answers] at ha
    obtain ⟨e, -, rfl⟩ := List.mem_map.mp ha
    rfl
  · rw [hL.answers, hM.answers]
    exact hLM.map _
  · intro what a ha hcontext
    have hfree : ¬ L.IsFree a.request := by
      rw [hL.answers] at ha
      obtain ⟨e, he, rfl⟩ := List.mem_map.mp ha
      exact fun h => h (List.mem_map_of_mem he)
    have hsend : s.server.sendError = Responder.send s.server a.request .internalServerError := by
      simp [Server.sendError, hcontext]
    rw [Connection.catchException_server, hsend, hL.send_current hcontext, if_neg hfree]
  · intro r hr hsent
    by_contra hno
    rw [Bool.not_eq_true, hM.isSent_iff] at hno
    obtain ⟨hcontext, hfree⟩ := hno
    have hcurrent := (Server.later_of_run ht).context r hr hcontext
    have hopen : Responder.isSent s.server r = false := by
      refine hL.isSent_iff.mpr ⟨hcurrent, ?_⟩
      by_contra htaken
      exact hLM.not_isFree htaken hfree
    rw [hopen] at hsent
    cases hsent

/-- A processor answers and throws, another request follows, and its processor answers. -/
theorem answered_at_most_once_reused :
    ∃ s t, runtime.run runtime.init [.processRequest .function,
        .command (.send 0 (.response "first" "")), .throw none] = some s ∧
      runtime.run s [.processRequest .function, .ret (some (.response "second" ""))] = some t ∧
      t.server.answers.length = 2 ∧ s.server.answers <+: t.server.answers := by
  refine ⟨_, _, rfl, rfl, rfl, ?_⟩
  exact (answered_at_most_once (k := [.processRequest .function,
    .command (.send 0 (.response "first" "")), .throw none])
    (l := [.processRequest .function, .ret (some (.response "second" ""))]) rfl rfl).2.2.1

/-! ## The first send of a request -/

/-- The send a step makes through a responder: a call of user code, or the answer that a processor
returns. -/
def State.sends (s : State) : Label → Option (RequestId × Answer)
  | .command (.send r answer) => some (r, answer)
  | .ret (some answer) =>
    match s.stack with
    | .user (.processor r) :: _ | .user (.requestProcessor r) :: _ => some (r, answer)
    | _ => none
  | _ => none

/-- The step makes the first send for the request, while the connection is open. -/
def FirstSend (s : State) (l : Label) (r : RequestId) (answer : Answer) : Prop :=
  s.sends l = some (r, answer) ∧ (∀ call ∈ s.server.calls, call.1 ≠ r) ∧
    s.server.responseContext ≠ none

/-- A first send hands its data to the request's own response. -/
def FirstSendTransmits (s : State) (l : Label) (t : State) : Prop :=
  ∀ r answer, FirstSend s l r answer → t.server.answers =
    s.server.answers ++ [{ request := r, through := r, answer := answer }]

/-- A first send is made for the request that was delivered last. -/
def FirstSendIsCurrent (s : State) (l : Label) : Prop :=
  ∀ r answer, FirstSend s l r answer → r + 1 = s.server.requests

theorem State.sends_step {s t : State} {l : Label} {r : RequestId} {answer : Answer}
    (h : Step s l t) (hsends : s.sends l = some (r, answer)) :
    t.server = Responder.send s.server r answer := by
  cases h with
  | command _ hc =>
    cases hc <;> cases hsends
    rfl
  | @ret a code fs hstack =>
    cases a with
    | none => cases hsends
    | some a =>
      rw [State.sends, hstack] at hsends
      cases code <;> cases hsends <;> rfl
  | _ => cases hsends

theorem firstSend_iff {s t : State} {L : Ledger RequestId Answer} (hL : s.server.Books L)
    {l : Label} (hstep : Step s l t) : FirstSendTransmits s l t ↔ FirstSendIsCurrent s l := by
  constructor
  · intro h r answer hfirst
    have hanswers := h r answer hfirst
    rw [State.sends_step hstep hfirst.1] at hanswers
    have hcurrent := (hL.isSent_iff.mp (hL.isSent_iff_transmits.mpr hanswers)).1
    exact (hL.context r hcurrent).2
  · intro h r answer hfirst
    have hlast := h r answer hfirst
    have ⟨hsends, hcalls, hopen⟩ := hfirst
    rw [State.sends_step hstep hsends]
    refine hL.isSent_iff_transmits.mp (hL.isSent_iff.mpr ⟨?_, ?_⟩)
    · obtain ⟨r', hr'⟩ := Option.ne_none_iff_exists'.mp hopen
      have := (hL.context r' hr').2
      obtain rfl : r' = r := Nat.succ.inj (this.trans hlast.symm)
      exact hr'
    · by_contra htaken
      obtain ⟨a, ha⟩ := hL.called r htaken
      exact hcalls _ ha rfl

/-- **Lost answers, exactly.** In a run the first send of every request hands its data to the
request's own response if and only if every first send is made for the request that was delivered
last. -/
theorem first_send_transmits_iff (l : List Label) :
    runtime.EachStep FirstSendTransmits runtime.init l ↔
      runtime.EachStep (fun s a _ => FirstSendIsCurrent s a) runtime.init l := by
  refine Machine.eachStep_iff (J := fun s => ∃ L, s.server.Books L) ?_ ?_
    ⟨_, Server.books_init⟩ l
  · rintro s a t ⟨L, hL⟩ hstep
    exact firstSend_iff hL (Step.of_step hstep)
  · rintro s a t ⟨L, hL⟩ - hstep
    obtain ⟨M, -, hM⟩ := hL.moves (State.moves_step (Step.of_step hstep))
    exact ⟨M, hM⟩

/-- A request waits for a timer, a second one is delivered, and the answer to the first is lost. -/
theorem first_send_lost : ¬ runtime.EachStep FirstSendTransmits runtime.init
    ([.processRequest .function, .ret none, .resume {}, .processRequest .function, .ret none,
      .resume {}, .outside] ++ [.command (.send 0 (.response "answer" ""))]) := by
  intro h
  have hlost := h.last rfl rfl 0 (.response "answer" "") ⟨rfl, by decide, by decide⟩
  exact absurd hlost (by decide)

end Asyncgi
