import Asyncgi.Request.Answers

/-!
# The order of the answers

A connection answers its requests in the order in which they came. What user code sends for a
request after a later one came is dropped, so a request that has no answer by then never gets one.

## Main definitions

* `Server.Ordered`: the answers are in the order of the requests, and of the calls of `send`
* `Server.Onward v w`: since `v`, only the last request of `v` and later ones were answered

## Main results

* `Server.Ordered.moves`, `Server.Onward.moves`: what a step of the runtime keeps
* `answers_in_order`: the answers over a whole run
-/

namespace Asyncgi

/-- The call of `Responder::send` that made the answer: the responder's request, and what is
sent. -/
def Sent.call (a : Sent) : RequestId × Answer := (a.through, a.answer)

namespace Server

variable {u v w : Server} {L : Ledger RequestId Answer} {r : RequestId} {answer : Answer}
  {s t : State}

/-- The requests are answered in their order, by the calls of `send`, in the order of these. -/
structure Ordered (v : Server) : Prop where
  increasing : (v.answers.map (·.request)).Pairwise (· < ·)
  calls : (v.answers.map Sent.call).Sublist v.calls

/-- The answers that `w` has and `v` did not have are to the last request of `v`, or to later
ones. -/
def Onward (v w : Server) : Prop :=
  v.requests ≤ w.requests ∧
    ∃ new, w.answers = v.answers ++ new ∧ ∀ a ∈ new, v.requests ≤ a.request + 1

theorem ordered_init : Ordered {} where
  increasing := List.Pairwise.nil
  calls := List.Sublist.refl []

theorem Onward.refl (v : Server) : v.Onward v := ⟨Nat.le_refl _, [], by simp, by simp⟩

/-- Every answer is to a request that has been delivered. -/
theorem Books.answered_lt (h : v.Books L) {a : Sent} (ha : a ∈ v.answers) :
    a.request < v.requests := by
  rw [h.answers] at ha
  obtain ⟨e, he, rfl⟩ := List.mem_map.mp ha
  have htaken : ¬ L.IsFree e.1 := fun hfree => hfree (List.mem_map_of_mem he)
  exact h.delivered e.1 htaken

/-- The answers made before the current request is answered are to requests before it. -/
theorem Books.answered_before (h : v.Books L) (hr : v.responseContext = some r)
    (hfree : L.IsFree r) {a : Sent} (ha : a ∈ v.answers) : a.request < r := by
  have hlt := h.answered_lt ha
  have hlast := (h.context r hr).2
  have hne : a.request ≠ r := by
    rintro rfl
    rw [h.answers] at ha
    obtain ⟨e, he, rfl⟩ := List.mem_map.mp ha
    exact hfree (List.mem_map_of_mem he)
  have hle : a.request ≤ r := Nat.le_of_lt_succ (Nat.lt_of_lt_of_eq hlt hlast.symm)
  exact Nat.lt_of_le_of_ne hle hne

/-- A call of `send` is dropped, or it answers the request that came last, and this for the first
time. -/
theorem Books.send_cases (h : v.Books L) (r : RequestId) (answer : Answer) :
    (Responder.send v r answer).answers = v.answers ∨
    r + 1 = v.requests ∧ (∀ a ∈ v.answers, a.request < r) ∧
      (Responder.send v r answer).answers =
        v.answers ++ [{ request := r, through := r, answer := answer }] := by
  by_cases hr : v.responseContext = some r
  · by_cases hfree : L.IsFree r
    · refine .inr ⟨(h.context r hr).2, fun a ha => h.answered_before hr hfree ha, ?_⟩
      rw [h.send_current hr, if_pos hfree]
    · left
      rw [h.send_current hr, if_neg hfree]
  · exact .inl (Books.send_other hr)

/-- A call of `send` is the last one from then on. -/
theorem send_calls (v : Server) (r : RequestId) (answer : Answer) :
    (Responder.send v r answer).calls = v.calls ++ [(r, answer)] := by
  simp only [Responder.send, ResponseSender.send]
  split
  · split
    · rfl
    · split <;> rfl
  · rfl

theorem send_requests (v : Server) (r : RequestId) (answer : Answer) :
    (Responder.send v r answer).requests = v.requests := by
  obtain ⟨_, _, _, h⟩ := Responder.send_eq v r answer
  rw [h]

/-- **Every step keeps the order of the answers.** -/
theorem Ordered.moves (hL : v.Books L) (h : v.Ordered) (hm : v.Moves w) : w.Ordered := by
  cases hm with
  | stay | deliver | destroy => exact ⟨h.increasing, h.calls⟩
  | send r answer =>
    rcases hL.send_cases r answer with hdropped | ⟨-, hbefore, hsent⟩
    · constructor
      · rw [hdropped]
        exact h.increasing
      · rw [hdropped, send_calls]
        exact h.calls.trans (List.sublist_append_left _ _)
    · constructor
      · rw [hsent, List.map_append, List.pairwise_append]
        refine ⟨h.increasing, List.pairwise_singleton _ _, ?_⟩
        intro q hq q' hq'
        obtain ⟨a, ha, rfl⟩ := List.mem_map.mp hq
        obtain rfl := List.mem_singleton.mp hq'
        exact hbefore a ha
      · rw [hsent, send_calls, List.map_append]
        exact h.calls.append (List.Sublist.refl _)

/-- **A step answers no request that was replaced.** -/
theorem Onward.moves (hL : w.Books L) (h : v.Onward w) (hm : w.Moves u) : v.Onward u := by
  obtain ⟨hle, new, hnew, hlate⟩ := h
  cases hm with
  | stay | destroy => exact ⟨hle, new, hnew, hlate⟩
  | deliver => exact ⟨Nat.le_succ_of_le hle, new, hnew, hlate⟩
  | send r answer =>
    rw [Onward, send_requests]
    refine ⟨hle, ?_⟩
    rcases hL.send_cases r answer with hdropped | ⟨hlast, -, hsent⟩
    · exact ⟨new, hdropped.trans hnew, hlate⟩
    · refine ⟨new ++ [{ request := r, through := r, answer := answer }], ?_, ?_⟩
      · rw [hsent, hnew, List.append_assoc]
      · intro a ha
        rcases List.mem_append.mp ha with ha | ha
        · exact hlate a ha
        · obtain rfl := List.mem_singleton.mp ha
          exact Nat.le_trans hle (Nat.le_of_eq hlast.symm)

theorem ordered_of_reachable (h : runtime.Reachable s) : s.server.Ordered := by
  have hboth : (∃ L, s.server.Books L) ∧ s.server.Ordered := by
    apply h.invariant (I := fun s => (∃ L, s.server.Books L) ∧ s.server.Ordered)
      ⟨⟨_, books_init⟩, ordered_init⟩
    rintro s a t ⟨⟨L, hL⟩, hs⟩ hstep
    have hm := State.moves_step (Step.of_step hstep)
    obtain ⟨M, -, hM⟩ := hL.moves hm
    exact ⟨⟨M, hM⟩, hs.moves hL hm⟩
  exact hboth.2

theorem onward_of_run (hL : s.server.Books L) {l : List Label} (hl : runtime.run s l = some t) :
    s.server.Onward t.server := by
  have hboth : (∃ M, t.server.Books M) ∧ s.server.Onward t.server := by
    refine Machine.run_invariant
      (I := fun t => (∃ M, t.server.Books M) ∧ s.server.Onward t.server) ?_ hl
      ⟨⟨L, hL⟩, Onward.refl _⟩
    rintro t a t' ⟨⟨M, hM⟩, ht⟩ hstep
    have hm := State.moves_step (Step.of_step hstep)
    obtain ⟨N, -, hN⟩ := hM.moves hm
    exact ⟨⟨N, hN⟩, ht.moves hM hm⟩
  exact hboth.2

end Server

/-- **Answers in the order of the requests.** Over every run, the requests of the connection that
are answered are answered in the order in which they came; the answers are those of calls of
`send`, in the order of the calls; and what a later part of the run answers is the request that
came last before it, or requests that came since. -/
theorem answers_in_order {k l : List Label} {s t : State}
    (hs : runtime.run runtime.init k = some s) (ht : runtime.run s l = some t) :
    (t.server.answers.map (·.request)).Pairwise (· < ·) ∧
    (t.server.answers.map Sent.call).Sublist t.server.calls ∧
    ∃ new, t.server.answers = s.server.answers ++ new ∧
      ∀ a ∈ new, s.server.requests ≤ a.request + 1 ∧ a.request < t.server.requests := by
  have hreach : runtime.Reachable s := ⟨k, hs⟩
  have hord := Server.ordered_of_reachable (hreach.run ht)
  obtain ⟨L, hL⟩ := Server.exists_books hreach
  obtain ⟨M, -, hM⟩ := hL.run ht
  obtain ⟨-, new, hnew, hlate⟩ := Server.onward_of_run hL ht
  refine ⟨hord.increasing, hord.calls, new, hnew, fun a ha => ⟨hlate a ha, ?_⟩⟩
  apply hM.answered_lt
  rw [hnew]
  exact List.mem_append_right _ ha

/-- The first request is left without an answer; what is sent for it while the second one is
processed is dropped, and the second one is answered. -/
theorem answers_in_order_late :
    ∃ s t, runtime.run runtime.init [.processRequest .function, .ret none, .resume {},
        .processRequest .function] = some s ∧
      runtime.run s [.command (.send 0 (.response "late" "")),
        .ret (some (.response "second" ""))] = some t ∧
      t.server.calls.length = 2 ∧ t.server.answers.map (·.request) = [1] ∧
      (t.server.answers.map Sent.call).Sublist t.server.calls := by
  refine ⟨_, _, rfl, rfl, rfl, rfl, ?_⟩
  exact (answers_in_order (k := [.processRequest .function, .ret none, .resume {},
    .processRequest .function]) (l := [.command (.send 0 (.response "late" "")),
    .ret (some (.response "second" ""))]) rfl rfl).2.1

end Asyncgi
