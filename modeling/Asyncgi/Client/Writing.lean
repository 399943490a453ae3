import Asyncgi.Output.Lossless
import Asyncgi.Runtime.Registry
import Asyncgi.Timer.Waits
import Asyncgi.Transition.Entries
import Asyncgi.Transition.Ghost

/-!
# What client connections write

In the runtime a client connection has the members of its write side, and its writes are among all
the operations that asio holds. Each connection's write side, with its own writes, is a link: what
is proved of links holds of every client connection, whatever the rest of the runtime does
meanwhile, until its destruction and after.

What is taken from asio: a write of bytes succeeds only while the socket is open.

## Main definitions

* `State.writesOn s c`: the writes of a connection that are in flight
* `Linked s c q`: the write side of the connection `c` is as in the link `q`
* `Writes c bs ds s t`: from `s` to `t` the connection moves as a link that is given the bytes `bs`,
  and whose writes of the bytes `ds` complete

## Main results

* `Writes.step`: every step of the runtime is, for a connection, moves of a link
* `clients_refine_link`: every connection is a link, over any run
* `client_writes`: its buffers and its writes; no byte is lost, doubled or reordered
-/

namespace Asyncgi

/-- A write of the connection: its size, and its result. -/
def AsyncOp.writeOn (c : ConnId) (op : AsyncOp) : Option (Nat × OpStatus) :=
  match op.handler with
  | .write d n => if d = c then some (n, op.status) else none
  | _ => none

/-- The writes of the connection that are in flight. -/
def State.writesOn (s : State) (c : ConnId) : List (Nat × OpStatus) :=
  s.ops.filterMap (·.writeOn c)

/-- What asio holds is the write of a link. How much of a write that failed is on the socket is left
open. -/
structure InFlight (x : Nat × OpStatus) (w : AsyncWrite) : Prop where
  size : w.data.length = x.1
  pending : x.2 = .pending → w.written = 0
  done : x.2 = .done none → w.written = w.data.length

/-- The write side of the connection `c`, and its writes, are those of the link. -/
structure Linked (s : State) (c : ConnId) (q : Link) : Prop where
  out : q.out = (s.conns c).out
  isOpen : q.isOpen = (s.conns c).isOpen
  writes : List.Forall₂ InFlight (s.writesOn c) q.writes

/-- The handler runs the requester of the connection `c`. -/
def Handler.feeds (c : ConnId) : Handler → OpStatus → Bool
  | connect d, .done none | read d, .done none => d == c
  | _, _ => false

/-- The bytes that a step gives to `sendData` of the connection `c`. -/
def State.gives (c : ConnId) (s : State) : Label → Bytes
  | .deliver i moves =>
    match s.ops[i]? with
    | some op => if op.handler.feeds c op.status then moves.sends.flatten else []
    | none => []
  | .resume moves =>
    match s.stack with
    | .afterReceive d :: _ => if d = c then moves.sends.flatten else []
    | _ => []
  | _ => []

/-- The bytes of a write of the connection `c` that completes in a step. -/
def State.completes (c : ConnId) (s : State) : Label → Bytes
  | .deliver i _ =>
    match s.ops[i]? with
    | some ⟨.write d n, .done none, _⟩ => if d = c then (s.conns c).out.writeBuffer.take n else []
    | _ => []
  | _ => []

/-- A write that succeeds has put its bytes on an open socket. -/
def SucceedsOpen (s : State) : Label → Prop
  | .finish i none =>
    match s.ops[i]? with
    | some ⟨.write c (_ + 1), _, _⟩ => (s.conns c).isOpen = true
    | _ => True
  | _ => True

instance (s : State) (l : Label) : Decidable (SucceedsOpen s l) := by
  unfold SucceedsOpen
  split
  · split <;> infer_instance
  · infer_instance

section

variable {c d : ConnId} {n : Nat} {status : OpStatus} {delay : Milliseconds}

theorem AsyncOp.writeOn_write :
    AsyncOp.writeOn c ⟨.write c n, status, delay⟩ = some (n, status) := by
  simp [writeOn]

theorem AsyncOp.writeOn_other (h : d ≠ c) :
    AsyncOp.writeOn c ⟨.write d n, status, delay⟩ = none := by
  simp [writeOn, h]

/-- Aborting a write leaves it in flight. -/
theorem InFlight.abort {op : AsyncOp} {p : Handler → Bool} {x : Nat × OpStatus} {w : AsyncWrite}
    (hx : op.writeOn c = some x) (h : InFlight x w) :
    ∃ y, (op.abort p).writeOn c = some y ∧ InFlight y w := by
  unfold AsyncOp.writeOn at hx ⊢
  rw [AsyncOp.abort_handler]
  split at hx
  next d m hhandler =>
    obtain ⟨rfl, rfl⟩ := Option.ite_none_right_eq_some.mp hx |>.imp_right Option.some.inj
    refine ⟨(m, (op.abort p).status), if_pos rfl, ?_⟩
    rcases op.abort_status (p := p) with hstatus | ⟨-, -, hstatus⟩
    · rw [hstatus]
      exact h
    · rw [hstatus]
      exact ⟨h.size, nofun, nofun⟩
  next => cases hx

theorem AsyncOp.abort_writeOn_none {op : AsyncOp} {p : Handler → Bool}
    (hop : op.writeOn c = none) : (op.abort p).writeOn c = none := by
  unfold AsyncOp.writeOn at hop ⊢
  rw [AsyncOp.abort_handler]
  split at hop
  next d m hhandler =>
    have hd : d ≠ c := by
      rintro rfl
      simp at hop
    simp [hd]
  next => rfl

/-- Aborting operations leaves the link's writes in flight. -/
theorem inFlight_abort {l : List AsyncOp} {ws : List AsyncWrite} (p : Handler → Bool)
    (h : List.Forall₂ InFlight (l.filterMap (·.writeOn c)) ws) :
    List.Forall₂ InFlight ((l.map (AsyncOp.abort p)).filterMap (·.writeOn c)) ws := by
  induction l generalizing ws with
  | nil => exact h
  | cons op l ih =>
    rw [List.map_cons]
    cases hop : op.writeOn c with
    | none =>
      rw [List.filterMap_cons_none hop] at h
      rw [List.filterMap_cons_none (AsyncOp.abort_writeOn_none hop)]
      exact ih h
    | some x =>
      rw [List.filterMap_cons_some hop] at h
      obtain ⟨w, ws, hw, hws, rfl⟩ := List.forall₂_cons_left_iff.mp h
      obtain ⟨y, hy, hyw⟩ := hw.abort (p := p) hop
      rw [List.filterMap_cons_some hy]
      exact .cons hyw (ih hws)

end

/-! ## Moves of a link -/

theorem Link.accepted_append (k l : List Link.Label) :
    Link.accepted (k ++ l) = Link.accepted k ++ Link.accepted l := List.flatMap_append

/-- Between `s` and `t` the connection `c` has made moves of a link that is given the bytes `bs`,
and whose writes of the bytes `ds` complete. -/
def Writes (c : ConnId) (bs ds : Bytes) (s t : State) : Prop :=
  ∀ q, Linked s c q → ∃ ks r, (Link.machine .clientConnection).run q ks = some r ∧
    Link.accepted ks = bs ∧
    (Link.machine .clientConnection).collect Link.completes q ks = ds ∧ Linked t c r

namespace Linked

variable {s t : State} {c : ConnId} {q : Link}

/-- Operations are started or aborted, none of the new ones is a write of the connection. -/
theorem of_ops (h : Linked s c q) (hout : (t.conns c).out = (s.conns c).out)
    (hopen : (t.conns c).isOpen = (s.conns c).isOpen) {p : Handler → Bool} {l : List AsyncOp}
    (hops : t.ops = s.ops.map (.abort p) ++ l) (hnew : ∀ op ∈ l, op.writeOn c = none) :
    Linked t c q where
  out := h.out.trans hout.symm
  isOpen := h.isOpen.trans hopen.symm
  writes := by
    rw [State.writesOn, hops, List.filterMap_append, List.filterMap_eq_nil_iff.mpr hnew,
      List.append_nil]
    exact inFlight_abort p h.writes

/-- The call a function of the write side makes on the socket is the link's. -/
theorem perform (h : Linked s c q) (e : Option String) (r : WriteState × SocketCall) :
    Linked (ClientConnection.perform s c e r) c (q.perform e r) := by
  rcases r with ⟨w, _ | _ | _⟩
  · exact ⟨by simp [ClientConnection.perform], by simp [ClientConnection.perform, h.isOpen],
      h.writes⟩
  · constructor
    · simp [ClientConnection.perform]
    · simp [ClientConnection.perform, h.isOpen]
    · have hwrites : (ClientConnection.perform s c e (w, .asyncWrite)).writesOn c =
          s.writesOn c ++ [(w.writeBuffer.length, .pending)] := by
        simp [ClientConnection.perform, State.writesOn, AsyncOp.writeOn]
      rw [hwrites]
      exact List.rel_append h.writes (.cons ⟨rfl, fun _ => rfl, nofun⟩ .nil)
  · constructor
    · simp [ClientConnection.perform, ClientConnection.close, Link.close]
    · simp [ClientConnection.perform, ClientConnection.close, Link.close]
    · have hwrites : (ClientConnection.perform s c e (w, .close)).writesOn c =
          (s.ops.map (AsyncOp.abort (·.onConn c))).filterMap (·.writeOn c) := by
        simp [ClientConnection.perform, ClientConnection.close, State.writesOn]
      rw [hwrites]
      exact inFlight_abort _ h.writes

/-- Only the rest of the state has changed. -/
theorem congr (h : Linked s c q) (hconns : t.conns c = s.conns c) (hops : t.ops = s.ops) :
    Linked t c q := by
  refine ⟨by rw [hconns, h.out], by rw [hconns, h.isOpen], ?_⟩
  rw [State.writesOn, hops]
  exact h.writes

end Linked

namespace Writes

variable {s t u : State} {c d : ConnId} {bs cs ds es : Bytes}

theorem refl (s : State) (c : ConnId) : Writes c [] [] s s :=
  fun q hq => ⟨[], q, rfl, rfl, rfl, hq⟩

theorem trans (h : Writes c bs ds s t) (h' : Writes c cs es t u) :
    Writes c (bs ++ cs) (ds ++ es) s u := by
  intro q hq
  obtain ⟨k, r, hk, hbs, hds, hr⟩ := h q hq
  obtain ⟨l, r', hl, hcs, hes, hr'⟩ := h' r hr
  refine ⟨k ++ l, r', ?_, ?_, ?_, hr'⟩
  · rw [Machine.run_append, hk, Option.bind_some, hl]
  · rw [Link.accepted_append, hbs, hcs]
  · rw [Machine.collect_append hk, hds, hes]

/-- Nothing is written after. -/
theorem and_then (h : Writes c bs ds s t) (h' : Writes c [] [] t u) : Writes c bs ds s u := by
  have hboth := h.trans h'
  rwa [List.append_nil, List.append_nil] at hboth

/-- The connection makes one move. -/
theorem move {a : Link.Label} (h : ∀ q, Linked s c q →
      ∃ r, Link.step .clientConnection q a = some r ∧ q.completes a = ds ∧ Linked t c r) :
    Writes c a.input ds s t := by
  intro q hq
  obtain ⟨r, hstep, hds, hr⟩ := h q hq
  have hmove : (Link.machine .clientConnection).step q a = some r := hstep
  refine ⟨[a], r, ?_, ?_, ?_, hr⟩
  · rw [Machine.run_cons, hmove]
    rfl
  · simp [Link.accepted]
  · simp [Machine.collect, hmove, hds]

/-- The link stays as it is. -/
theorem of_linked (h : ∀ q, Linked s c q → Linked t c q) : Writes c [] [] s t :=
  fun q hq => ⟨[], q, rfl, rfl, rfl, h q hq⟩

theorem congr (hconns : t.conns c = s.conns c) (hops : t.ops = s.ops) : Writes c [] [] s t :=
  of_linked fun _ hq => hq.congr hconns hops

theorem of_ops (hout : (t.conns c).out = (s.conns c).out)
    (hopen : (t.conns c).isOpen = (s.conns c).isOpen) {p : Handler → Bool} {l : List AsyncOp}
    (hops : t.ops = s.ops.map (.abort p) ++ l) (hnew : ∀ op ∈ l, op.writeOn c = none) :
    Writes c [] [] s t :=
  of_linked fun _ hq => hq.of_ops hout hopen hops hnew

/-- An operation is started that is not a write of the connection. -/
theorem of_async (hconns : t.conns c = s.conns c) {op : AsyncOp} (hops : t.ops = s.ops ++ [op])
    (hop : op.writeOn c = none) : Writes c [] [] s t := by
  refine of_ops (p := fun _ => false) (l := [op]) (by rw [hconns]) (by rw [hconns]) ?_ ?_
  · rw [hops, List.map_congr_left fun op _ => AsyncOp.abort_of_not (by simp), List.map_id']
  · simpa using hop

/-- Operations are aborted. -/
theorem of_abort (hconns : t.conns c = s.conns c) {p : Handler → Bool}
    (hops : t.ops = s.ops.map (.abort p)) : Writes c [] [] s t :=
  of_ops (l := []) (by rw [hconns]) (by rw [hconns]) (by rw [hops, List.append_nil]) (by simp)

/-! ### The functions of a client connection -/

/-- The code of another connection. -/
theorem perform_other (hd : d ≠ c) (e : Option String) (r : WriteState × SocketCall) :
    Writes c [] [] s (ClientConnection.perform s d e r) := by
  have hother : ∀ f, (s.setConn d f).conns c = s.conns c := by
    intro f
    rw [State.setConn_conns, Function.update_of_ne hd.symm]
  rcases r with ⟨w, _ | _ | _⟩
  · exact congr (hother fun conn => { conn with out := w }) rfl
  · exact of_async (hother fun conn => { conn with out := w }) rfl (AsyncOp.writeOn_other hd)
  · have hclose : Writes c [] []
        (s.setConn d fun conn => { conn with out := w })
        (ClientConnection.close (s.setConn d fun conn => { conn with out := w }) d e) := by
      refine of_abort ?_ rfl
      simp [ClientConnection.close, Function.update_of_ne hd.symm]
    exact (congr (hother fun conn => { conn with out := w }) rfl).trans hclose

theorem use (s : State) (c : ConnId) (o : Object) : Writes c [] [] s (s.use o) := congr rfl rfl

theorem sendData (s : State) (c d : ConnId) (data : Bytes) :
    Writes c (if d = c then data else []) [] s (ClientConnection.sendData s d data) := by
  by_cases hd : d = c
  · subst hd
    rw [if_pos rfl]
    refine move (a := .sendData data) fun q hq => ⟨_, rfl, rfl, ?_⟩
    rw [hq.out]
    exact (hq.congr (t := s.use (.conn d)) rfl rfl).perform none _
  · rw [if_neg hd]
    exact (use s c (.conn d)).trans (perform_other hd none _)

theorem disconnect (s : State) (c d : ConnId) (e : Option String) :
    Writes c [] [] s (ClientConnection.disconnect s d e) := by
  by_cases hd : d = c
  · subst hd
    refine move (a := .disconnect e) fun q hq => ⟨_, rfl, rfl, ?_⟩
    rw [hq.out]
    exact (hq.congr (t := s.use (.conn d)) rfl rfl).perform e _
  · exact (use s c (.conn d)).trans (perform_other hd e _)

theorem processReading (s : State) (c d : ConnId) :
    Writes c [] [] s (ClientConnection.processReading s d) := by
  unfold ClientConnection.processReading
  by_cases hopen : ((s.use (.conn d)).conns d).isOpen
  · rw [if_pos hopen]
    exact of_async rfl rfl rfl
  · rw [if_neg hopen]
    exact congr rfl rfl

theorem runRequester (s : State) (c d : ConnId) (moves : RequesterMoves) :
    Writes c (if d = c then moves.sends.flatten else []) [] s
      (ClientConnection.runRequester s d moves) := by
  have hsends : Writes c (if d = c then moves.sends.flatten else []) [] s
      (moves.sends.foldl (fun s data => ClientConnection.sendData s d data) s) := by
    generalize moves.sends = sends
    induction sends generalizing s with
    | nil => simpa using refl s c
    | cons data sends ih =>
      have hnext := (sendData s c d data).trans (ih _)
      by_cases hd : d = c
      · simpa [hd] using hnext
      · simpa [hd] using hnext
  unfold ClientConnection.runRequester
  by_cases hdisconnects : moves.disconnects
  · rw [if_pos hdisconnects]
    exact hsends.and_then (disconnect _ c d moves.closeError)
  · rw [if_neg hdisconnects]
    exact hsends

/-! ### The other functions of the runtime -/

theorem timerStart (s : State) (c : ConnId) (u : TimerId) (time : Milliseconds) (task : Task) :
    Writes c [] [] s (TimerService.start s u time task) :=
  of_ops rfl rfl (TimerService.start_ops s u time task) (by simp [AsyncOp.writeOn])

theorem timerStartPeriodic (s : State) (c : ConnId) (u : TimerId) (time : Milliseconds)
    (task : Task) : Writes c [] [] s (TimerService.startPeriodic s u time task) :=
  of_ops rfl rfl (TimerService.startPeriodic_ops s u time task) (by simp [AsyncOp.writeOn])

theorem timerStop (s : State) (c : ConnId) (u : TimerId) :
    Writes c [] [] s (TimerService.stop s u) := of_abort rfl (TimerService.stop_ops s u)

theorem makeTimer (s : State) (c : ConnId) (maker : Option RequestId) :
    Writes c [] [] s (Timer.make s maker) := by
  cases maker with
  | none => exact congr rfl rfl
  | some r =>
    by_cases hr : s.server.responseContext = some r
    · rw [Timer.make_current hr]
      exact congr rfl rfl
    · rw [Timer.make_expired hr]
      exact refl s c

theorem destroy (s : State) (c : ConnId) (p : Object → Bool) (closeErrors : List String) :
    Writes c [] [] s (s.destroy p closeErrors) := of_abort rfl (State.destroy_ops s p closeErrors)

theorem onResponseReceived (s : State) (c d : ConnId) (response : Option ResponseData) :
    Writes c [] [] s (ClientService.onResponseReceived s d response) :=
  of_abort rfl (ClientService.onResponseReceived_ops s d response)

theorem beginRequest (s : State) (c d : ConnId) : Writes c [] [] s (s.beginRequest d) := by
  refine of_linked fun q hq => ⟨?_, ?_, hq.writes⟩
  · rw [State.beginRequest_conns, hq.out]
    by_cases hd : c = d
    · rw [hd, Function.update_self]
    · rw [Function.update_of_ne hd]
  · rw [State.beginRequest_conns, hq.isOpen]
    by_cases hd : c = d
    · rw [hd, Function.update_self]
    · rw [Function.update_of_ne hd]

/-- The connection that is made has a number of its own. -/
theorem prepareRequest (hc : c < s.connCount) (k : ClientRef) (maker : Option RequestId)
    (overload : Overload) (timeout : Milliseconds) :
    Writes c [] [] s (ClientService.prepareRequest s k maker overload timeout) := by
  have hconns : (ClientService.prepareRequest s k maker overload timeout).conns c = s.conns c := by
    rw [ClientService.prepareRequest_conns, Function.update_of_ne (Nat.ne_of_lt hc)]
  refine of_ops (by rw [hconns]) (by rw [hconns])
    (ClientService.prepareRequest_ops s k maker overload timeout) ?_
  simp [AsyncOp.writeOn]

theorem makeRequest (hc : c < s.connCount) (k : ClientRef) (maker : Option RequestId)
    (overload : Overload) (hasEndpoint : Bool) (timeout : Milliseconds) :
    Writes c [] [] s (ClientService.makeRequest s k maker overload hasEndpoint timeout) := by
  have hprepare := prepareRequest hc k maker overload timeout
  unfold ClientService.makeRequest
  cases hasEndpoint with
  | false => exact hprepare
  | true =>
    refine hprepare.trans (of_async ?_ rfl rfl)
    rw [if_pos rfl, ClientConnection.makeRequest_conns, Function.update_of_ne (Nat.ne_of_lt hc)]

theorem releaseHeld (s : State) (c : ConnId) (p : PostId) :
    Writes c [] [] s (TaskContext.releaseHeld s p) := by
  by_cases hlast : (s.contexts p).copies = 0
  · rw [TaskContext.releaseHeld_last hlast]
    exact congr rfl rfl
  · rw [TaskContext.releaseHeld_shared hlast]
    exact congr rfl rfl

theorem release (s : State) (c : ConnId) (p : PostId) :
    Writes c [] [] s (TaskContext.release s p) := by
  by_cases hlast : (s.contexts p).copies ≤ 1 ∧ (s.contexts p).held = false
  · rw [TaskContext.release_last hlast]
    exact congr rfl rfl
  · rw [TaskContext.release_shared hlast]
    exact congr rfl rfl

theorem withStack (s : State) (c : ConnId) (fs : List Frame) :
    Writes c [] [] s { s with stack := fs } := congr rfl rfl

theorem unwind (what : Option String) (catcher : Option Nat) (fs : List Frame) (s : State)
    (c : ConnId) : Writes c [] [] s (State.unwind what catcher fs s) :=
  State.unwind_invariant (I := Writes c [] [] s) (fun t fs h => h.and_then (withStack t c fs))
    (fun t p h => h.and_then (releaseHeld t c p)) (fun _ h => h.and_then (congr rfl rfl))
    (fun _ h => h.and_then (congr rfl rfl)) (fun _ h => h.and_then (congr rfl rfl)) catcher fs
    (refl s c)

theorem returns (s : State) (c : ConnId) (code : UserCode) (fs : List Frame)
    (answer : Option Answer) : Writes c [] [] s (s.returns code fs answer) := by
  unfold State.returns
  split <;> exact congr rfl rfl

theorem runTask (s : State) (c : ConnId) (u : TimerId) (k : Frame) (task : Task) :
    Writes c [] [] s (s.runTask u k task) := by
  cases task with
  | user callback => exact congr rfl rfl
  | cancelRequest d =>
    have hend : Writes c [] [] s (((s.emit [.timeout d]).push [k]).endRequest d) := congr rfl rfl
    simp only [State.runTask, ClientConnection.cancelOnTimeout]
    split
    · exact hend.trans (onResponseReceived _ c d none)
    · exact congr rfl rfl
  | checkFuture f =>
    have hpush : Writes c [] [] s (((s.emit [.futureQueried f]).emit [.futureError f]).push [k]) :=
      congr rfl rfl
    simp only [State.runTask]
    split
    · exact congr rfl rfl
    · exact congr rfl rfl
    · exact hpush.trans (unwind _ none _ _ c)

/-! ### The steps -/

section Steps

variable {i : Nat} {moves : RequesterMoves} {error : Option OpError} {h : Handler}

/-- The completion of an operation that is not a write of the connection is taken out. -/
theorem delivers (hd : Delivers s i h error u)
    (hh : ∀ status delay, AsyncOp.writeOn c ⟨h, status, delay⟩ = none) : Writes c [] [] s u := by
  obtain ⟨delay, hop⟩ := hd.op
  rw [hd.rest]
  refine of_linked fun q hq => ⟨hq.out, hq.isOpen, ?_⟩
  rw [State.writesOn, filterMap_eraseIdx hop (hh _ _)]
  exact hq.writes

/-- **A write completes.** -/
theorem written {n : Nat} (hd : Delivers s i (.write c n) error u) :
    Writes c [] (s.completes c (.deliver i moves)) s
      (ClientConnection.onWritten u c n error moves) := by
  obtain ⟨delay, hop⟩ := hd.op
  obtain ⟨j, hj, herase⟩ := exists_filterMap_eraseIdx hop (f := (·.writeOn c)) AsyncOp.writeOn_write
  have hlink : ∀ q, Linked s c q → Linked u c { q with writes := q.writes.eraseIdx j } := by
    intro q hq
    rw [hd.rest]
    refine ⟨hq.out, hq.isOpen, ?_⟩
    rw [State.writesOn, herase]
    exact hq.writes.eraseIdx j
  rw [State.completes, hop]
  cases error with
  | none =>
    refine move (a := .complete j moves.closeError) fun q hq => ?_
    obtain ⟨w, hw, hflight⟩ := hq.writes.exists_entry hj
    have hsize : w.data.length = n := hflight.size
    -- asio reports success, so the link has put all its bytes on the socket
    refine ⟨Link.perform { q with writes := q.writes.eraseIdx j } moves.closeError
      (q.out.onBytesWritten n), ?_, ?_, ?_⟩
    · simp only [Link.step, hw, hflight.done rfl, if_true, hsize]
    · simp only [Link.completes, hw, hsize, hq.out, if_true]
    · have hout : q.out = (u.conns c).out := (hlink q hq).out
      rw [hout]
      exact ((hlink q hq).congr (t := u.use (.conn c)) rfl rfl).perform moves.closeError _
  | some e =>
    -- a client's connection is not closed by a failed write
    refine move (a := .fail j e.message none) fun q hq => ?_
    obtain ⟨w, hw, -⟩ := hq.writes.exists_entry hj
    refine ⟨Link.onWriteError .clientConnection { q with writes := q.writes.eraseIdx j }
      e.message none, by simp only [Link.step, hw], rfl, ?_⟩
    exact ⟨(hlink q hq).out, (hlink q hq).isOpen, (hlink q hq).writes⟩

/-- **An operation gets its result**: the bytes of a write that succeeds go out. -/
theorem finish {delay : Milliseconds} {msg : Option String}
    (hop : s.ops[i]? = some ⟨h, .pending, delay⟩) (hopen : SucceedsOpen s (.finish i msg)) :
    Writes c [] [] s { s with ops := s.ops.set i ⟨h, .done (msg.map .other), delay⟩ } := by
  have hother : (∀ status, AsyncOp.writeOn c ⟨h, status, delay⟩ = none) →
      Writes c [] [] s { s with ops := s.ops.set i ⟨h, .done (msg.map .other), delay⟩ } := by
    intro hnone
    refine of_linked fun q hq => ⟨hq.out, hq.isOpen, ?_⟩
    rw [State.writesOn, filterMap_set_of_none hop (hnone _) (hnone _)]
    exact hq.writes
  cases h with
  | write d n =>
    by_cases hd : d = c
    · subst hd
      have hdone : AsyncOp.writeOn d ⟨.write d n, .done (msg.map .other), delay⟩ =
          some (n, .done (msg.map .other)) := AsyncOp.writeOn_write
      obtain ⟨j, hj, hset⟩ :=
        exists_filterMap_set hop (f := (·.writeOn d)) AsyncOp.writeOn_write hdone
      have hstay : (∀ w, InFlight (n, .pending) w → InFlight (n, .done (msg.map .other)) w) →
          Writes d [] [] s
            { s with ops := s.ops.set i ⟨.write d n, .done (msg.map .other), delay⟩ } := by
        intro hflight
        refine of_linked fun q hq => ⟨hq.out, hq.isOpen, ?_⟩
        obtain ⟨w, hw, hpending⟩ := hq.writes.exists_entry hj
        rw [State.writesOn, hset]
        exact hq.writes.set_left hw (hflight w hpending)
      rcases msg with _ | msg
      · cases n with
        | zero =>
          refine hstay fun w hw => ⟨hw.size, fun h => (by cases h), fun _ => ?_⟩
          rw [hw.pending rfl, hw.size]
        | succ k =>
          refine move (a := .progress j (k + 1)) fun q hq => ?_
          obtain ⟨w, hw, hflight⟩ := hq.writes.exists_entry hj
          have hwritten : w.written = 0 := hflight.pending rfl
          have hsize : w.data.length = k + 1 := hflight.size
          have hisOpen : q.isOpen = true := by
            rw [hq.isOpen]
            simpa [SucceedsOpen, hop] using hopen
          refine ⟨{ q with
            writes := q.writes.set j { w with written := w.written + (k + 1) }
            sent := q.sent ++ (q.out.writeBuffer.drop w.written).take (k + 1) }, ?_, rfl, ?_⟩
          · simp [Link.step, hw, hisOpen, hwritten, hsize]
          · refine ⟨hq.out, hq.isOpen, ?_⟩
            rw [State.writesOn, hset]
            refine hq.writes.set ⟨hsize, fun hpending => ?_, fun _ => ?_⟩ j
            · cases hpending
            · change w.written + (k + 1) = w.data.length
              rw [hwritten, hsize, Nat.zero_add]
      · refine hstay fun w hw => ⟨hw.size, fun h => (by cases h), fun hdone => ?_⟩
        cases hdone
    · exact hother fun _ => AsyncOp.writeOn_other hd
  | _ => exact hother fun _ => rfl

/-- The requester of the connection `d` sends the request. -/
theorem onConnected (s : State) (c d : ConnId) (moves : RequesterMoves) :
    Writes c (if d = c then moves.sends.flatten else []) [] s
      (ClientConnection.onConnected s d none moves) := by
  have hsends := (processReading s c d).trans (runRequester _ c d moves)
  simp only [ClientConnection.onConnected]
  by_cases haccepts : moves.accepts
  · rw [if_pos haccepts]
    exact hsends.and_then (beginRequest _ c d)
  · rw [if_neg haccepts]
    exact hsends.and_then (onResponseReceived _ c d none)

/-- The requester of the connection `d` is given what was read. -/
theorem onRead (s : State) (c d : ConnId) (moves : RequesterMoves) :
    Writes c (if d = c then moves.sends.flatten else []) [] s
      (ClientConnection.onRead s d none moves) := by
  have hsends := (use s c (.conn d)).trans (runRequester _ c d moves)
  have hpush := hsends.and_then (withStack _ c (.afterReceive d ::
    (ClientConnection.runRequester (s.use (.conn d)) d moves).stack))
  simp only [ClientConnection.onRead]
  cases moves.response with
  | none => exact hpush
  | some r =>
    by_cases hin : d ∈ ((ClientConnection.runRequester (s.use (.conn d)) d moves).push
        [.afterReceive d]).inProgress
    · simp only [if_pos hin]
      have hend : Writes c [] [] ((ClientConnection.runRequester (s.use (.conn d)) d moves).push
          [.afterReceive d]) (((ClientConnection.runRequester (s.use (.conn d)) d moves).push
            [.afterReceive d]).endRequest d) := congr rfl rfl
      exact (hpush.and_then hend).and_then (onResponseReceived _ c d (some r))
    · simp only [if_neg hin]
      exact hpush

/-- What is given to `sendData` when an operation completes. -/
theorem gives_deliver (hd : Delivers s i h error u) : s.gives c (.deliver i moves) =
    if h.feeds c (.done error) then moves.sends.flatten else [] := by
  obtain ⟨delay, hop⟩ := hd.op
  rw [State.gives, hop]

/-- Only a write of the connection's own is one of its writes that complete. -/
theorem completes_deliver (hd : Delivers s i h error u) (hh : ∀ n, h ≠ .write c n) :
    s.completes c (.deliver i moves) = [] := by
  obtain ⟨delay, hop⟩ := hd.op
  rw [State.completes, hop]
  cases h with
  | write d n =>
    cases error with
    | none =>
      refine if_neg fun hdc => ?_
      exact hh n (hdc ▸ rfl)
    | some e => rfl
  | _ => rfl

/-- **The event loop calls a completion handler.** -/
theorem handle (hd : Delivers s i h error u) :
    Writes c (s.gives c (.deliver i moves)) (s.completes c (.deliver i moves)) s
      (u.handle error moves h) := by
  rw [gives_deliver hd]
  by_cases hown : ∃ n, h = .write c n
  · obtain ⟨n, rfl⟩ := hown
    exact written hd
  rw [completes_deliver hd fun n hn => hown ⟨n, hn⟩]
  cases h with
  | oneShot k task =>
    have htaken : Writes c [] [] s u := delivers hd fun _ _ => rfl
    cases error with
    | none => exact htaken.trans (runTask u c k (.afterOneShot k) task)
    | some e => exact htaken
  | periodic k time task =>
    have htaken : Writes c [] [] s u := delivers hd fun _ _ => rfl
    cases error with
    | none => exact htaken.trans (runTask u c k (.afterPeriodic k time task) task)
    | some e => exact htaken
  | connect d =>
    have htaken : Writes c [] [] s u := delivers hd fun _ _ => rfl
    cases error with
    | none =>
      simp only [Handler.feeds, beq_iff_eq]
      exact htaken.trans (onConnected u c d moves)
    | some e => exact htaken.trans (onResponseReceived u c d none)
  | read d =>
    have htaken : Writes c [] [] s u := delivers hd fun _ _ => rfl
    cases error with
    | none =>
      simp only [Handler.feeds, beq_iff_eq]
      exact htaken.trans (onRead u c d moves)
    | some e =>
      cases e with
      | aborted => exact htaken
      | other msg => exact htaken.trans (congr rfl rfl)
  | write d n =>
    have hdc : d ≠ c := fun hdc => hown ⟨n, hdc ▸ rfl⟩
    have htaken : Writes c [] [] s u := delivers hd fun _ _ => AsyncOp.writeOn_other hdc
    cases error with
    | none => exact htaken.trans ((use u c (.conn d)).trans (perform_other hdc _ _))
    | some e => exact htaken.trans (congr rfl rfl)
  | postedTask p => exact (delivers hd fun _ _ => rfl).trans (withStack u c _)

end Steps

/-- A call of user code. -/
theorem command (hc : c < s.connCount) {a : Command} (h : CommandStep s a t) :
    Writes c [] [] s t := by
  cases h with
  | makeTimer => exact makeTimer s c _
  | start => exact (timerStart s c _ _ _).trans (congr rfl rfl)
  | startPeriodic | waitFuture => exact (timerStartPeriodic s c _ _ _).trans (congr rfl rfl)
  | stop => exact timerStop s c _
  | destroyTimer | destroyClient | disconnect => exact destroy s c _ _
  | makeClient | copyContext | send => exact congr rfl rfl
  | makeRequest => exact (makeRequest hc _ _ _ _ _).trans (congr rfl rfl)
  | makeRequestThrows => exact makeRequest hc _ _ _ _ _
  | postTask => exact of_async rfl rfl rfl
  | releaseContext => exact release s c _

/-- The code of asyncgi on top of the stack goes on. -/
theorem resume {moves : RequesterMoves} (h : s.resume moves s.stack = some t) :
    Writes c (s.gives c (.resume moves)) [] s t := by
  rw [State.gives]
  rcases hstack : s.stack with _ | ⟨f, fs⟩
  · simp [hstack, State.resume] at h
  rw [hstack] at h
  cases f <;> simp only [State.resume, Option.some.injEq, reduceCtorEq] at h <;> subst h
  case launch | tryBlock | postAction => exact withStack s c fs
  case afterOneShot k =>
    have hreturned : Writes c [] [] s ({ s with stack := fs }.emit [.returned (.oneShot k)]) :=
      congr rfl rfl
    exact hreturned.trans (timerStop _ c k)
  case afterPeriodic => exact (withStack s c fs).trans (timerStartPeriodic _ c _ _ _)
  case afterFuture => exact (withStack s c fs).trans (timerStop _ c _)
  case afterResponse => exact congr rfl rfl
  case afterReceive d =>
    have huse : Writes c [] [] s ({ s with stack := fs }.use (.conn d)) := congr rfl rfl
    exact (huse.trans (runRequester _ c d moves)).and_then (processReading _ c d)
  case taskHandler p => exact (withStack s c fs).trans (releaseHeld _ c p)
  case rethrow what => exact (withStack s c fs).trans (unwind what none fs _ c)

/-- **Every step of the runtime is, for a connection, moves of a link.** -/
theorem step {l : Label} (hc : c < s.connCount) (hopen : SucceedsOpen s l)
    (h : s.step l = some t) : Writes c (s.gives c l) (s.completes c l) s t := by
  cases l with
  | deliver i moves =>
    unfold State.step at h
    split at h
    · cases h
    dsimp only at h
    split at h
    next k error delay hstack hop =>
      obtain rfl := Option.some.inj h
      exact handle ⟨hstack, ⟨delay, hop⟩, rfl⟩
    next => cases h
  | resume moves =>
    unfold State.step at h
    split at h
    · cases h
    exact resume h
  | processRequest processor =>
    cases Step.of_step h
    cases processor <;> exact congr rfl rfl
  | destroyConnection closeErrors =>
    cases Step.of_step h
    exact (destroy s c _ closeErrors).and_then (congr rfl rfl)
  | outside =>
    cases Step.of_step h
    exact congr rfl rfl
  | discard i =>
    cases Step.of_step h with
    | @discard _ p op _ hop hp =>
      have htaken : Writes c [] [] s { s with ops := s.ops.eraseIdx i } := by
        refine of_linked fun q hq => ⟨hq.out, hq.isOpen, ?_⟩
        rw [State.writesOn, filterMap_eraseIdx hop (by rw [AsyncOp.writeOn, hp])]
        exact hq.writes
      exact htaken.trans (releaseHeld _ c p)
  | release p =>
    cases Step.of_step h
    exact release s c p
  | finish i error =>
    cases Step.of_step h with
    | finish hop _ => exact finish hop hopen
  | futureReady f value =>
    cases Step.of_step h
    exact congr rfl rfl
  | command a =>
    cases Step.of_step h with
    | command _ hcommand => exact command hc hcommand
  | ret answer =>
    cases Step.of_step h
    exact returns s c _ _ answer
  | throw what catcher =>
    cases Step.of_step h with
    | @throw _ _ code fs hstack =>
      have hemit : Writes c [] [] s (s.emit [.threw code what]) := congr rfl rfl
      exact hemit.trans (unwind what catcher fs _ c)
  | runProcessor =>
    cases Step.of_step h
    exact congr rfl rfl

end Writes

/-! ## The connections that are made -/

section Made

variable {s t : State} {c : ConnId} {l : Label}

/-- Only `makeRequest` makes connections. -/
theorem Step.connCount_eq (h : Step s l t) (hmake : ∀ client overload hasEndpoint timeout,
      l ≠ .command (.makeRequest client overload hasEndpoint timeout)) :
    t.connCount = s.connCount := by
  have hu : ∀ {i : Nat} {h : Handler} {error : Option OpError} {u : State},
      Delivers s i h error u → u.connCount = s.connCount := by
    intro i h error u hd
    rw [hd.rest]
  cases h with
  | @processRequest processor => cases processor <;> rfl
  | command _ hc =>
    cases hc with
    | @makeTimer maker =>
      cases maker with
      | none => rfl
      | some r =>
        by_cases hr : s.server.responseContext = some r
        · rw [Timer.make_current hr]
          rfl
        · rw [Timer.make_expired hr]
    | makeRequest | makeRequestThrows => exact absurd rfl (hmake _ _ _ _)
    | releaseContext => exact TaskContext.release_connCount s _
    | _ => rfl
  | discard => exact TaskContext.releaseHeld_connCount _ _
  | release => exact TaskContext.release_connCount s _
  | @ret answer code fs =>
    unfold State.returns
    split <;> rfl
  | throw => exact State.unwind_connCount (s.emit _) _ _ _
  | taskDone => exact TaskContext.releaseHeld_connCount _ _
  | rethrown => exact State.unwind_connCount _ _ none _
  | receiveDone _ hv => exact hv.connCount
  | ignored hd | callback hd | timeout hd | futurePending hd | futureReady hd
  | futureConsumed hd | task hd =>
    have hcount := hu hd
    exact hcount
  | timedOut hd | notConnected hd =>
    have hcount := hu hd
    rw [ClientService.onResponseReceived_connCount]
    exact hcount
  | connected hd hv | transferred hd _ _ hv | received hd hv => exact hv.connCount.trans (hu hd)
  | refused hd hv | answered hd hv =>
    rw [ClientService.onResponseReceived_connCount]
    exact hv.connCount.trans (hu hd)
  | _ => rfl

/-- Nothing is given to a connection that is not made yet. -/
theorem Registered.gives_eq_nil (h : Registered s) (hc : s.connCount ≤ c) (l : Label) :
    s.gives c l = [] := by
  cases l with
  | deliver i moves =>
    simp only [State.gives]
    split
    next op hop =>
      have hfits := h.ops op (List.mem_of_getElem? hop)
      refine if_neg fun hfeeds => ?_
      obtain ⟨k, status, delay⟩ := op
      cases k with
      | connect d | read d =>
        have hd : d < s.connCount := hfits
        rcases status with _ | _ | _ <;> simp [Handler.feeds] at hfeeds
        exact absurd hfeeds (Nat.ne_of_lt (Nat.lt_of_lt_of_le hd hc))
      | _ => simp [Handler.feeds] at hfeeds
    next => rfl
  | resume moves =>
    simp only [State.gives]
    split
    next d fs hstack =>
      have hfits : d < s.connCount := h.stack (.afterReceive d) (by simp [hstack])
      exact if_neg (Nat.ne_of_lt (Nat.lt_of_lt_of_le hfits hc))
    next => rfl
  | _ => rfl

/-- No write of a connection that is not made yet completes. -/
theorem Registered.completes_eq_nil (h : Registered s) (hc : s.connCount ≤ c) (l : Label) :
    s.completes c l = [] := by
  cases l with
  | deliver i moves =>
    simp only [State.completes]
    split
    next d n delay hop =>
      have hd : d < s.connCount := h.ops _ (List.mem_of_getElem? hop)
      exact if_neg (Nat.ne_of_lt (Nat.lt_of_lt_of_le hd hc))
    next => rfl
  | _ => rfl

/-- What an unmade connection has of asio's operations: nothing. -/
theorem Registered.writesOn_eq_nil (h : Registered s) (hc : s.connCount ≤ c) :
    s.writesOn c = [] := by
  refine List.filterMap_eq_nil_iff.mpr fun op hop => ?_
  have hfits := h.ops op hop
  unfold AsyncOp.writeOn
  split
  next d n hhandler =>
    rw [hhandler] at hfits
    have hd : d < s.connCount := hfits
    exact if_neg (Nat.ne_of_lt (Nat.lt_of_lt_of_le hd hc))
  next => rfl

/-- A connection is made, and starts as a link. -/
theorem linked_makeRequest (h : Registered s) (k : ClientRef) (maker : Option RequestId)
    (overload : Overload) (hasEndpoint : Bool) (timeout : Milliseconds) :
    ∃ ks q, (Link.machine .clientConnection).run {} ks = some q ∧ Link.accepted ks = [] ∧
      (Link.machine .clientConnection).collect Link.completes {} ks = [] ∧
      Linked (ClientService.makeRequest s k maker overload hasEndpoint timeout) s.connCount q := by
  have hwrites : (ClientService.makeRequest s k maker overload hasEndpoint timeout).writesOn
      s.connCount = [] := by
    have hnone : List.Forall₂ InFlight (s.ops.filterMap (·.writeOn s.connCount)) [] := by
      rw [show s.ops.filterMap (·.writeOn s.connCount) = [] from h.writesOn_eq_nil (Nat.le_refl _)]
      exact .nil
    have haborted := inFlight_abort (·.onTimer s.timerCount) hnone
    rw [List.forall₂_nil_right_iff] at haborted
    unfold ClientService.makeRequest
    cases hasEndpoint with
    | false => simpa [State.writesOn, AsyncOp.writeOn] using haborted
    | true => simpa [State.writesOn, AsyncOp.writeOn] using haborted
  cases hasEndpoint with
  | true =>
    refine ⟨[], {}, rfl, rfl, rfl, ?_, ?_, ?_⟩
    · simp [ClientService.makeRequest]
    · simp [ClientService.makeRequest]
    · rw [hwrites]
      exact .nil
  | false =>
    -- the socket is never opened
    refine ⟨[.close none], Link.close {} none, rfl, rfl, rfl, ?_, ?_, ?_⟩
    · simp [ClientService.makeRequest, Link.close, WriteState.onClose]
    · simp [ClientService.makeRequest, Link.close]
    · rw [hwrites]
      exact .nil

/-! ## Runs -/

/-- The connection `c`, once it is made, is a link that was given the bytes `bs`, and whose writes
of the bytes `ds` have completed. -/
structure IsLink (c : ConnId) (s : State) (bs ds : Bytes) : Prop where
  registered : Registered s
  link : c < s.connCount → ∃ ks q, (Link.machine .clientConnection).run {} ks = some q ∧
    Link.accepted ks = bs ∧
    (Link.machine .clientConnection).collect Link.completes {} ks = ds ∧ Linked s c q
  unmade : s.connCount ≤ c → bs = [] ∧ ds = []

theorem IsLink.init (c : ConnId) : IsLink c {} [] [] where
  registered := Registered.init
  link hc := absurd hc (Nat.not_lt_zero c)
  unmade _ := ⟨rfl, rfl⟩

/-- **Every step keeps a connection a link**, and gives it what its requester sends. -/
theorem IsLink.step {bs ds : Bytes} (h : IsLink c s bs ds) (hopen : SucceedsOpen s l)
    (ht : s.step l = some t) : IsLink c t (bs ++ s.gives c l) (ds ++ s.completes c l) := by
  have hstep := Step.of_step ht
  have hreg := h.registered.step hstep
  rcases Nat.lt_or_ge c s.connCount with hc | hc
  · refine ⟨hreg, fun _ => ?_, fun hle => ?_⟩
    · obtain ⟨ks, q, hks, hbs, hds, hq⟩ := h.link hc
      obtain ⟨ls, r, hls, hgives, hcompletes, hr⟩ := Writes.step hc hopen ht q hq
      refine ⟨ks ++ ls, r, ?_, ?_, ?_, hr⟩
      · rw [Machine.run_append, hks, Option.bind_some, hls]
      · rw [Link.accepted_append, hbs, hgives]
      · rw [Machine.collect_append hks, hds, hcompletes]
    · exact absurd hle (Nat.not_le.mpr (Nat.lt_of_lt_of_le hc hstep.connCount_le))
  · obtain ⟨rfl, rfl⟩ := h.unmade hc
    rw [h.registered.gives_eq_nil hc, h.registered.completes_eq_nil hc]
    refine ⟨hreg, fun hmade => ?_, fun _ => ⟨rfl, rfl⟩⟩
    by_cases hmake : ∃ client overload hasEndpoint timeout,
      l = .command (.makeRequest client overload hasEndpoint timeout)
    · obtain ⟨client, overload, hasEndpoint, timeout, rfl⟩ := hmake
      have hlinked := linked_makeRequest h.registered client.service client.maker overload
        hasEndpoint timeout
      have hlast : c = s.connCount := by
        cases hstep with
        | command _ hcommand =>
          cases hcommand <;> exact Nat.le_antisymm (Nat.le_of_lt_succ hmade) hc
      subst hlast
      obtain ⟨ks, q, hks, hbs, hds, hq⟩ := hlinked
      refine ⟨ks, q, hks, hbs, hds, ?_⟩
      cases hstep with
      | command _ hcommand =>
        cases hcommand with
        | makeRequest => exact hq.congr rfl rfl
        | makeRequestThrows => exact hq
    · have hcount := hstep.connCount_eq fun client overload hasEndpoint timeout hl =>
        hmake ⟨client, overload, hasEndpoint, timeout, hl⟩
      rw [hcount] at hmade
      exact absurd hc (Nat.not_le.mpr hmade)

theorem isLink_of_run (c : ConnId) {k : List Label}
    (hopen : runtime.EachStep (fun s a _ => SucceedsOpen s a) runtime.init k)
    (hk : runtime.run runtime.init k = some s) :
    IsLink c s (runtime.collect (State.gives c) runtime.init k)
      (runtime.collect (State.completes c) runtime.init k) :=
  hopen.collect (I := IsLink c) (g := []) (d := [])
    (fun _ _ _ _ _ h hG ht => h.step hG ht) (IsLink.init c) hk

/-- **Every client connection is a link.** In a run of the runtime in which writes succeed only on
open sockets, the write side of a connection moves as a link that is given what the connection's
requester gives to `sendData`, whatever the rest of the runtime does meanwhile. -/
theorem clients_refine_link {k : List Label}
    (hopen : runtime.EachStep (fun s a _ => SucceedsOpen s a) runtime.init k)
    (hk : runtime.run runtime.init k = some s) (hc : c < s.connCount) :
    ∃ ks q, (Link.machine .clientConnection).run {} ks = some q ∧
      Link.accepted ks = runtime.collect (State.gives c) runtime.init k ∧ Linked s c q := by
  obtain ⟨ks, q, hks, hgiven, -, hq⟩ := (isLink_of_run c hopen hk).link hc
  exact ⟨ks, q, hks, hgiven, hq⟩

/-- A request is made and sent in two pieces; the first is written, and the second is on its way. -/
def twoPiecesRun : List Label :=
  [.outside, .command .makeClient, .command (.makeRequest (.io 0) .localFastcgi true 1000),
    .ret none, .finish 1 none, .deliver 1 { sends := [[1, 2], [3]] }, .finish 2 none,
    .deliver 2 {}]

theorem clients_refine_link_sent :
    ∃ s, runtime.run runtime.init twoPiecesRun = some s ∧ s.writesOn 0 = [(1, .pending)] ∧
      ∃ ks q, (Link.machine .clientConnection).run {} ks = some q ∧
        Link.accepted ks = runtime.collect (State.gives 0) runtime.init twoPiecesRun ∧
        Linked s 0 q :=
  ⟨_, rfl, rfl, clients_refine_link (k := twoPiecesRun) (by decide) rfl (by decide)⟩

/-! ### The buffers -/

/-- The write that asio holds is one of the link's. -/
theorem Linked.exists_write {q : Link} (h : Linked s c q) {x : Nat × OpStatus}
    (hx : x ∈ s.writesOn c) : ∃ w ∈ q.writes, w.data.length = x.1 := by
  obtain ⟨i, hi⟩ := List.mem_iff_getElem?.mp hx
  obtain ⟨w, hw, hflight⟩ := h.writes.exists_entry hi
  exact ⟨w, List.mem_of_getElem? hw, hflight.size⟩

/-- **The writes of a client connection.** Over every run of the runtime in which writes succeed
only on open sockets, at most one write of bytes of a connection is in flight; no completion
subtracts more than `bytesToWrite_`; and bytes wait only behind a write. The bytes of the writes
that have completed are the first of those that were given to the connection; where `bytesToWrite_`
is zero they are all of them; and while a write of bytes is in flight it is of all of
`writeBuffer_`, and what was given is what has been written, `writeBuffer_`, and
`nextWriteBuffer_`. -/
theorem client_writes {k : List Label}
    (hopen : runtime.EachStep (fun s a _ => SucceedsOpen s a) runtime.init k)
    (hk : runtime.run runtime.init k = some s) (hc : c < s.connCount) :
    ((s.writesOn c).filter (·.1 ≠ 0)).length ≤ 1 ∧
    ((s.conns c).out.nextWriteBuffer ≠ [] → 0 < (s.conns c).out.bytesToWrite) ∧
    runtime.collect (State.completes c) runtime.init k <+:
      runtime.collect (State.gives c) runtime.init k ∧
    ((s.conns c).out.bytesToWrite = 0 →
      runtime.collect (State.completes c) runtime.init k =
        runtime.collect (State.gives c) runtime.init k) ∧
    ∀ x ∈ s.writesOn c, x.1 ≤ (s.conns c).out.bytesToWrite ∧
      (x.1 ≠ 0 → x.1 = (s.conns c).out.writeBuffer.length ∧
        runtime.collect (State.gives c) runtime.init k =
          runtime.collect (State.completes c) runtime.init k ++ (s.conns c).out.writeBuffer ++
            (s.conns c).out.nextWriteBuffer) := by
  obtain ⟨ks, q, hks, hgiven, hcompleted, hq⟩ := (isLink_of_run c hopen hk).link hc
  have hphase := Link.phase_run hks
  have hwritten := Link.written_run hks
  rw [hgiven] at hphase
  rw [hgiven, hcompleted] at hwritten
  rw [← hq.out]
  refine ⟨?_, hphase.bytesToWrite_pos, hwritten.isPrefix, hwritten.idle, fun x hx => ?_⟩
  · have hbusy : List.Forall₂ InFlight ((s.writesOn c).filter (·.1 ≠ 0)) q.busyWrites := by
      refine List.rel_filter (fun x w hxw => ?_) hq.writes
      have hsize : w.data.length = x.1 := hxw.size
      simp [← hsize]
    rw [hbusy.length_eq]
    exact hphase.busyWrites_le.1
  · obtain ⟨w, hw, hsize⟩ := hq.exists_write hx
    refine ⟨hsize ▸ hphase.length_le_bytesToWrite hw, fun hne => ?_⟩
    have hdata : w.data ≠ [] := by
      intro hnil
      rw [hnil] at hsize
      exact hne hsize.symm
    exact ⟨by rw [← hsize, (hphase.of_busy hw hdata).1], hwritten.busy w hw hdata⟩

/-- The first piece has been written, and the second is on its way. -/
theorem client_writes_second :
    ∃ s, runtime.run runtime.init twoPiecesRun = some s ∧ s.writesOn 0 = [(1, .pending)] ∧
      runtime.collect (State.completes 0) runtime.init twoPiecesRun = [1, 2] ∧
      runtime.collect (State.gives 0) runtime.init twoPiecesRun =
        runtime.collect (State.completes 0) runtime.init twoPiecesRun ++
          (s.conns 0).out.writeBuffer ++ (s.conns 0).out.nextWriteBuffer := by
  have hrun : ∃ s, runtime.run runtime.init twoPiecesRun = some s ∧
      s.writesOn 0 = [(1, .pending)] ∧ s.connCount = 1 := ⟨_, rfl, rfl, rfl⟩
  obtain ⟨s, hs, hwrites, hcount⟩ := hrun
  have hall := client_writes (c := 0) (by decide) hs (by rw [hcount]; decide)
  refine ⟨s, hs, hwrites, rfl, ?_⟩
  exact ((hall.2.2.2.2 (1, .pending) (by rw [hwrites]; exact .head _)).2 (by decide)).2

end Made

end Asyncgi
