import Mathlib.Data.List.Perm.Basic
import Asyncgi.Runtime.Client

/-!
# What the code of a client connection changes

The member functions of `ClientConnection`, and the requester through them, change the members of
their connection, start reads and writes on its socket, abort operations on it and report errors.
The queues, the call stack, the timers and the requests stay as they are.

## Main definitions

* `OnSocket c s t`: code of the connection `c` has led from `s` to `t`

## Main results

* `ClientConnection.onSocket_sendData`, `onSocket_disconnect`, `onSocket_runRequester`, …
* `OnSocket.mem_ops`, `OnSocket.handlers`: the operations are those of before, and new reads and
  writes on the socket
-/

namespace Asyncgi

/-- The handler of a read or a write on the connection's socket. -/
def Handler.transfersOn (c : ConnId) : Handler → Bool
  | read d | write d _ => d == c
  | _ => false

/-- The result is an error. -/
def OpStatus.failed : OpStatus → Bool
  | done (some _) => true
  | _ => false

namespace AsyncOp

variable {p q : Handler → Bool}

@[simp] theorem abort_handler (op : AsyncOp) : (op.abort p).handler = op.handler := by
  unfold abort
  split <;> rfl

theorem abort_of_not {op : AsyncOp} (h : ¬ p op.handler) : op.abort p = op :=
  if_neg fun hp => h hp.1

theorem abort_abort (op : AsyncOp) : (op.abort p).abort q = op.abort fun h => p h || q h := by
  by_cases hs : op.status = .pending
  · by_cases hp : p op.handler
    · simp [abort, hs, hp]
    · simp [abort, hs, hp]
  · simp [abort, hs]

/-- An operation that was aborted, or had its result, has a result. -/
theorem abort_status (op : AsyncOp) : (op.abort p).status = op.status ∨
    op.status = .pending ∧ p op.handler ∧ (op.abort p).status = .done (some .aborted) := by
  by_cases h : p op.handler ∧ op.status = .pending
  · right
    refine ⟨h.2, h.1, ?_⟩
    rw [abort, if_pos h]
  · left
    rw [abort, if_neg h]

end AsyncOp

namespace State

variable (s : State)

/-- The handlers of the operations asio holds. -/
def handlers : List Handler := s.ops.map (·.handler)

theorem mem_handlers {s : State} {h : Handler} : h ∈ s.handlers ↔ ∃ op ∈ s.ops, op.handler = h :=
  List.mem_map

@[simp] theorem handlers_abort (p : Handler → Bool) : (s.abort p).handlers = s.handlers := by
  simp [handlers, abort, Function.comp_def]

@[simp] theorem handlers_async (h : Handler) (delay : Milliseconds) :
    (s.async h delay).handlers = s.handlers ++ [h] := by
  simp [handlers, async]

variable {s} {i : Nat} {op : AsyncOp}

/-- An operation is taken out. -/
theorem handlers_eraseIdx (hop : s.ops[i]? = some op) :
    (op.handler :: { s with ops := s.ops.eraseIdx i }.handlers).Perm s.handlers := by
  obtain ⟨hlt, rfl⟩ := List.getElem?_eq_some_iff.mp hop
  exact (List.getElem_cons_eraseIdx_perm hlt).map AsyncOp.handler

/-- An operation gets its result; what does not depend on the result is as before. -/
theorem map_set {α : Type*} {f : AsyncOp → α} (hop : s.ops[i]? = some op) {op' : AsyncOp}
    (hf : f op' = f op) : (s.ops.set i op').map f = s.ops.map f := by
  obtain ⟨hlt, rfl⟩ := List.getElem?_eq_some_iff.mp hop
  rw [List.map_set, hf]
  apply List.ext_getElem
  · simp
  · intro n hn hn'
    rw [List.getElem_set]
    split
    next heq =>
      subst heq
      rw [List.getElem_map]
    next => rfl

theorem handlers_set (hop : s.ops[i]? = some op) {op' : AsyncOp}
    (hhandler : op'.handler = op.handler) :
    { s with ops := s.ops.set i op' }.handlers = s.handlers := map_set hop hhandler

end State

/-- `t` is `s` after code of the client connection `c`. -/
structure OnSocket (c : ConnId) (s t : State) : Prop where
  frame : t = { s with conns := t.conns, ops := t.ops, errors := t.errors, faults := t.faults }
  conns : ∀ d, ∃ isOpen out, t.conns d = { s.conns d with isOpen := isOpen, out := out }
  ops : ∃ p new, t.ops = s.ops.map (.abort p) ++ new ∧ (∀ h, p h → h.onConn c) ∧
    ∀ op ∈ new, op.handler.transfersOn c
  faults : ∀ o ∈ t.faults, o ∈ s.faults ∨ o = .conn c ∧ s.dead o

namespace OnSocket

variable {c : ConnId} {s t u : State}

theorem server (h : OnSocket c s t) : t.server = s.server :=
  (congrArg State.server h.frame).trans rfl
theorem paused (h : OnSocket c s t) : t.paused = s.paused :=
  (congrArg State.paused h.frame).trans rfl
theorem providerQueue (h : OnSocket c s t) : t.providerQueue = s.providerQueue :=
  (congrArg State.providerQueue h.frame).trans rfl
theorem clientQueue (h : OnSocket c s t) : t.clientQueue = s.clientQueue :=
  (congrArg State.clientQueue h.frame).trans rfl
theorem dispatcherQueue (h : OnSocket c s t) : t.dispatcherQueue = s.dispatcherQueue :=
  (congrArg State.dispatcherQueue h.frame).trans rfl
theorem timers (h : OnSocket c s t) : t.timers = s.timers :=
  (congrArg State.timers h.frame).trans rfl
theorem timerCount (h : OnSocket c s t) : t.timerCount = s.timerCount :=
  (congrArg State.timerCount h.frame).trans rfl
theorem connCount (h : OnSocket c s t) : t.connCount = s.connCount :=
  (congrArg State.connCount h.frame).trans rfl
theorem inProgress (h : OnSocket c s t) : t.inProgress = s.inProgress :=
  (congrArg State.inProgress h.frame).trans rfl
theorem contexts (h : OnSocket c s t) : t.contexts = s.contexts :=
  (congrArg State.contexts h.frame).trans rfl
theorem postCount (h : OnSocket c s t) : t.postCount = s.postCount :=
  (congrArg State.postCount h.frame).trans rfl
theorem futures (h : OnSocket c s t) : t.futures = s.futures :=
  (congrArg State.futures h.frame).trans rfl
theorem dead (h : OnSocket c s t) : t.dead = s.dead := (congrArg State.dead h.frame).trans rfl
theorem stack (h : OnSocket c s t) : t.stack = s.stack := (congrArg State.stack h.frame).trans rfl
theorem terminated (h : OnSocket c s t) : t.terminated = s.terminated :=
  (congrArg State.terminated h.frame).trans rfl
theorem trace (h : OnSocket c s t) : t.trace = s.trace := (congrArg State.trace h.frame).trans rfl

section Members

variable (h : OnSocket c s t) (d : ConnId)
include h

theorem service : (t.conns d).service = (s.conns d).service := by
  obtain ⟨_, _, hd⟩ := h.conns d
  rw [hd]

theorem maker : (t.conns d).maker = (s.conns d).maker := by
  obtain ⟨_, _, hd⟩ := h.conns d
  rw [hd]

theorem timer : (t.conns d).timer = (s.conns d).timer := by
  obtain ⟨_, _, hd⟩ := h.conns d
  rw [hd]

theorem overload : (t.conns d).overload = (s.conns d).overload := by
  obtain ⟨_, _, hd⟩ := h.conns d
  rw [hd]

theorem cancelSet : (t.conns d).cancelSet = (s.conns d).cancelSet := by
  obtain ⟨_, _, hd⟩ := h.conns d
  rw [hd]

end Members

theorem mem_ops (h : OnSocket c s t) {op : AsyncOp} (hop : op ∈ t.ops) :
    (∃ op₀ ∈ s.ops, ∃ p, (∀ h, p h → h.onConn c) ∧ op = op₀.abort p) ∨
      op.handler.transfersOn c := by
  obtain ⟨p, new, hops, hp, hnew⟩ := h.ops
  rw [hops, List.mem_append, List.mem_map] at hop
  rcases hop with ⟨op₀, hop₀, rfl⟩ | hop
  · exact Or.inl ⟨op₀, hop₀, p, hp, rfl⟩
  · exact Or.inr (hnew op hop)

/-- The handlers are those of before, and new reads and writes on the socket. -/
theorem handlers (h : OnSocket c s t) :
    ∃ new, t.handlers = s.handlers ++ new ∧ ∀ k ∈ new, k.transfersOn c := by
  obtain ⟨p, new, hops, -, hnew⟩ := h.ops
  refine ⟨new.map (·.handler), ?_, List.forall_mem_map.mpr hnew⟩
  simp [State.handlers, hops, Function.comp_def]

/-! ### Composition -/

theorem refl (c : ConnId) (s : State) : OnSocket c s s where
  frame := rfl
  conns d := ⟨_, _, rfl⟩
  ops := by
    refine ⟨fun _ => false, [], ?_, by simp, by simp⟩
    rw [List.append_nil]
    exact (List.map_id'' (fun op => AsyncOp.abort_of_not (by simp)) _).symm
  faults _ ho := Or.inl ho

theorem trans (h : OnSocket c s t) (h' : OnSocket c t u) : OnSocket c s u where
  frame := by
    rw [h'.frame, h.frame]
  conns d := by
    obtain ⟨_, _, hd⟩ := h.conns d
    obtain ⟨isOpen, out, hd'⟩ := h'.conns d
    exact ⟨isOpen, out, by rw [hd', hd]⟩
  ops := by
    obtain ⟨p, new, hops, hp, hnew⟩ := h.ops
    obtain ⟨q, new', hops', hq, hnew'⟩ := h'.ops
    refine ⟨fun h => p h || q h, new.map (.abort q) ++ new', ?_, ?_, ?_⟩
    · rw [hops', hops, List.map_append, List.map_map, List.append_assoc]
      congr 1
      exact List.map_congr_left fun op _ => AsyncOp.abort_abort op
    · intro k hk
      rcases Bool.or_eq_true_iff.mp hk with hk | hk
      · exact hp k hk
      · exact hq k hk
    · intro op hop
      rcases List.mem_append.mp hop with hop | hop
      · obtain ⟨op₀, hop₀, rfl⟩ := List.mem_map.mp hop
        rw [AsyncOp.abort_handler]
        exact hnew op₀ hop₀
      · exact hnew' op hop
  faults o ho := by
    rcases h'.faults o ho with ho | ⟨rfl, ho⟩
    · exact h.faults o ho
    · exact Or.inr ⟨rfl, h.dead ▸ ho⟩

/-! ### The elementary updates -/

variable (c s)

theorem use : OnSocket c s (s.use (.conn c)) where
  frame := rfl
  conns d := ⟨_, _, rfl⟩
  ops := (refl c s).ops
  faults o ho := by
    rw [State.use_faults, List.mem_append] at ho
    rcases ho with ho | ho
    · exact Or.inl ho
    · split at ho
      next hdead =>
        rw [List.mem_singleton] at ho
        exact Or.inr ⟨ho, ho ▸ hdead⟩
      next => cases ho

theorem report (event : ErrorEvent) (msg : String) : OnSocket c s (s.report event msg) where
  frame := rfl
  conns _ := ⟨_, _, rfl⟩
  ops := (refl c s).ops
  faults _ ho := Or.inl ho

theorem reportClose (closeError : Option String) : OnSocket c s (s.reportClose closeError) where
  frame := rfl
  conns _ := ⟨_, _, rfl⟩
  ops := (refl c s).ops
  faults _ ho := Or.inl ho

theorem setConn {f : ClientConnection → ClientConnection}
    (hf : ∀ x, ∃ isOpen out, f x = { x with isOpen := isOpen, out := out }) :
    OnSocket c s (s.setConn c f) where
  frame := rfl
  conns d := by
    rw [State.setConn_conns]
    by_cases hd : d = c
    · subst hd
      rw [Function.update_self]
      exact hf _
    · rw [Function.update_of_ne hd]
      exact ⟨_, _, rfl⟩
  ops := (refl c s).ops
  faults _ ho := Or.inl ho

theorem abort : OnSocket c s (s.abort (·.onConn c)) where
  frame := rfl
  conns d := ⟨_, _, rfl⟩
  ops := ⟨fun h => h.onConn c, [], by simp, fun _ h => h, by simp⟩
  faults _ ho := Or.inl ho

theorem async {h : Handler} (hh : h.transfersOn c) (delay : Milliseconds) :
    OnSocket c s (s.async h delay) where
  frame := rfl
  conns d := ⟨_, _, rfl⟩
  ops := by
    refine ⟨fun _ => false, [{ handler := h, delay := delay }], ?_, by simp, by simpa⟩
    rw [State.async_ops]
    congr 1
    exact (List.map_id'' (fun op => AsyncOp.abort_of_not (by simp)) _).symm
  faults _ ho := Or.inl ho

end OnSocket

/-! ## The member functions -/

namespace ClientConnection

variable (s : State) (c : ConnId)

theorem onSocket_close (closeError : Option String) : OnSocket c s (close s c closeError) :=
  ((OnSocket.setConn c s fun _ => ⟨_, _, rfl⟩).trans (OnSocket.abort c _)).trans
    (OnSocket.reportClose c _ closeError)

theorem onSocket_perform (closeError : Option String) (r : WriteState × SocketCall) :
    OnSocket c s (perform s c closeError r) := by
  have hout : OnSocket c s (s.setConn c fun conn => { conn with out := r.1 }) :=
    OnSocket.setConn c s fun _ => ⟨_, _, rfl⟩
  rcases r with ⟨w, _ | _ | _⟩
  · exact hout
  · exact hout.trans (OnSocket.async c _ (by simp [Handler.transfersOn]) 0)
  · exact hout.trans (onSocket_close _ c closeError)

theorem onSocket_sendData (data : Bytes) : OnSocket c s (sendData s c data) :=
  (OnSocket.use c s).trans (onSocket_perform _ c none _)

theorem onSocket_onBytesWritten (n : Nat) (closeError : Option String) :
    OnSocket c s (onBytesWritten s c n closeError) :=
  (OnSocket.use c s).trans (onSocket_perform _ c closeError _)

theorem onSocket_disconnect (closeError : Option String) :
    OnSocket c s (disconnect s c closeError) :=
  (OnSocket.use c s).trans (onSocket_perform _ c closeError _)

theorem onSocket_processReading : OnSocket c s (processReading s c) := by
  have huse := OnSocket.use c s
  unfold processReading
  by_cases hopen : ((s.use (.conn c)).conns c).isOpen
  · rw [if_pos hopen]
    exact huse.trans (OnSocket.async c _ (by simp [Handler.transfersOn]) 0)
  · rw [if_neg hopen]
    exact huse

/-- What `makeRequest` does before it connects. -/
theorem onSocket_opened :
    OnSocket c s ((s.use (.conn c)).setConn c fun conn => { conn with isOpen := true }) :=
  (OnSocket.use c s).trans (OnSocket.setConn c _ fun _ => ⟨_, _, rfl⟩)

theorem onSocket_runRequester (moves : RequesterMoves) :
    OnSocket c s (runRequester s c moves) := by
  have hsends : OnSocket c s (moves.sends.foldl (fun s data => sendData s c data) s) := by
    generalize moves.sends = sends
    induction sends generalizing s with
    | nil => exact OnSocket.refl c s
    | cons data sends ih => exact (onSocket_sendData s c data).trans (ih _)
  unfold runRequester
  by_cases hd : moves.disconnects
  · rw [if_pos hd]
    exact hsends.trans (onSocket_disconnect _ c moves.closeError)
  · rw [if_neg hd]
    exact hsends

end ClientConnection

end Asyncgi
