import Asyncgi.Output.Link
import Asyncgi.Runtime.State

/-!
# The lifetime of a server's connection

`ConnectionListener::waitForConnection` makes a `Connection` and starts an accept on its socket.
`Connection::process` reads from the socket; what is read is handed to `fcgi::Responder`, which
calls `sendData` and `disconnect`, and the connection is read again. Nothing else owns a connection:
it is kept by the completion handlers of the accept, of the read and of the writes, which have
copies of its `shared_ptr`.

What is taken from asio: closing a socket aborts the read that is still pending, a read of a closed
socket fails at once, and no handler of a connection runs while another one does. The accept's
handler is run by another context, so it may return at any later moment.

## Main definitions

* `Connection`, `Connection.step`, `Connection.machine`: the connection, its moves and its runs
* `Connection.Step`: the moves case by case
* `Connection.holders`: the handlers that have a copy of the `shared_ptr`
* `Connection.Owned`: every holder is counted

## Main results

* `Connection.Owned.step`: every move keeps the count
* `Connection.lifetime`: a connection is destroyed with its last handler, and not used after that
-/

namespace Asyncgi

/-- The accept on the socket of a connection. -/
inductive AcceptStatus
  | waiting
  /-- its completion handler runs, and has called `Connection::process` -/
  | running
  | over
  deriving DecidableEq, Repr

/-- The result of an operation on a socket that is being closed. One that has a result keeps it. -/
def OpStatus.abort : OpStatus → OpStatus
  | pending => done (some .aborted)
  | done error => done error

/-- `asio::error::bad_descriptor`. -/
def badDescriptor : OpError := .other "Bad file descriptor"

/-- A `Connection`, its write side, and the operations that asio holds for it. -/
structure Connection where
  /-- The socket is opened by the accept. -/
  link : Link := { isOpen := false }
  accept : AcceptStatus := .waiting
  /-- The `async_read_some` that is outstanding. -/
  read : Option OpStatus := none
  /-- `readData` runs, inside `fcgi::Responder::receiveData`. -/
  receiving : Bool := false
  /-- The `use_count()` of the connection's `shared_ptr`. -/
  useCount : Nat := 1
  destroyed : Bool := false
  /-- The messages of the `SocketReadError`s. -/
  readErrors : List String := []
  /-- The uses of the connection after its destruction. -/
  faults : Nat := 0
  deriving DecidableEq, Repr

namespace Connection

/-! ## The functions of `Connection` -/

section

variable (c : Connection)

/-- A member is used. -/
def use : Connection := { c with faults := c.faults + if c.destroyed then 1 else 0 }

/-- `shared_from_this()`, captured by a handler. -/
def retain : Connection := { c with useCount := c.useCount + 1 }

/-- A handler is destroyed, with its copy of the `shared_ptr`. -/
def release : Connection :=
  { c with useCount := c.useCount - 1, destroyed := c.destroyed || c.useCount - 1 == 0 }

/-- `close`. -/
def close (closeError : Option String) : Connection :=
  let c := c.use
  { c with link := c.link.close closeError, read := c.read.map OpStatus.abort }

/-- The members after a function of the write side, and its call on the socket. -/
def perform (closeError : Option String) : WriteState × SocketCall → Connection
  | (w, .none) => { c with link := { c.link with out := w } }
  | (w, .asyncWrite) =>
    -- the handler of the write captures the connection
    retain { c with
      link := { c.link with out := w, writes := c.link.writes ++ [{ data := w.writeBuffer }] } }
  | (w, .close) => close { c with link := { c.link with out := w } } closeError

/-- `sendData`. -/
def sendData (data : Bytes) : Connection := c.use.perform none (c.link.out.sendData data)

/-- `onBytesWritten`. -/
def onBytesWritten (n : Nat) (closeError : Option String) : Connection :=
  c.use.perform closeError (c.link.out.onBytesWritten n)

/-- `disconnect`. -/
def disconnect (closeError : Option String) : Connection :=
  c.use.perform closeError c.link.out.disconnect

/-- `process`. -/
def process : Connection :=
  let c := c.use.retain
  -- a read of a closed socket has its result at once
  { c with read := some (if c.link.isOpen then .pending else .done (some badDescriptor)) }

/-- The handler of `async_read_some`, up to the call of `fcgi::Responder::receiveData`. -/
def onRead (closeError : Option String) : Option OpError → Connection
  -- an aborted read is not reported
  | some .aborted => c.release
  | some (.other msg) =>
    (close { c.use with readErrors := c.readErrors ++ [msg] } closeError).release
  | none => { c.use with receiving := true }

/-- `readData`, once `fcgi::Responder::receiveData` has returned, and the end of the handler. -/
def afterReceive : Connection := (process { c with receiving := false }).release

/-- The error branch of the handler of `async_write`. -/
def onWriteError (msg : String) (closeError : Option String) : Connection :=
  let c := c.use
  (close { c with
    link := { c.link with
      failed := true
      events := c.link.events ++ [(ErrorEvent.socketWriteError, msg)] } } closeError).release

/-- `ConnectionListener::onConnected`, for the connection. -/
def onConnected : Option String → Connection
  | some _ => release { c with accept := .over }
  | none => process { c with accept := .running, link := {} }

/-- The write is taken out of those in flight, to call its handler. -/
def takeWrite (i : Nat) : Connection :=
  { c with link := { c.link with writes := c.link.writes.eraseIdx i } }

/-- A request can have been delivered, and a `Responder` reaches the connection. -/
def isServing : Bool := c.accept != .waiting && !c.destroyed

end

/-- The moves of a connection. Writes in flight are named by their position. -/
inductive Label
  /-- The accept completes, with an error or with success. -/
  | accept (error : Option String)
  /-- The handler of the accept returns. -/
  | acceptReturns
  /-- `fcgi::Responder` sends, within `receiveData` or for an answer given later. -/
  | sendData (data : Bytes)
  | disconnect (closeError : Option String)
  /-- `k` more bytes of a write go out. -/
  | progress (i k : Nat)
  /-- The handler of a write is called. -/
  | written (i : Nat) (closeError : Option String)
  | writeFailed (i : Nat) (msg : String) (closeError : Option String)
  /-- The pending read gets its result. -/
  | finishRead (error : Option String)
  /-- The handler of the read is called. -/
  | read (closeError : Option String)
  /-- `fcgi::Responder::receiveData` returns. -/
  | received
  deriving DecidableEq, Repr

/-- One move of a connection. -/
def step (c : Connection) : Label → Option Connection
  | .accept error => if c.accept = .waiting then some (c.onConnected error) else none
  | .acceptReturns =>
    if c.accept = .running then some (release { c with accept := .over }) else none
  | .sendData d => if c.isServing then some (c.sendData d) else none
  | .disconnect e => if c.isServing then some (c.disconnect e) else none
  | .progress i k =>
    match c.link.writes[i]? with
    | some w =>
      if c.link.isOpen ∧ w.written + k ≤ w.data.length then
        some { c with
          link := { c.link with
            writes := c.link.writes.set i { w with written := w.written + k }
            sent := c.link.sent ++ (c.link.out.writeBuffer.drop w.written).take k } }
      else none
    | none => none
  | .written i e =>
    match c.receiving, c.link.writes[i]? with
    | false, some w =>
      if w.written = w.data.length then
        some ((c.takeWrite i).onBytesWritten w.data.length e).release
      else none
    | _, _ => none
  | .writeFailed i msg e =>
    match c.receiving, c.link.writes[i]? with
    | false, some _ => some ((c.takeWrite i).onWriteError msg e)
    | _, _ => none
  | .finishRead error =>
    if c.read = some .pending then some { c with read := some (.done (error.map .other)) } else none
  | .read e =>
    match c.receiving, c.read with
    | false, some (.done error) => some (onRead { c with read := none } e error)
    | _, _ => none
  | .received => if c.receiving then some c.afterReceive else none

/-- A connection, from its construction by `ConnectionListener::waitForConnection` on. -/
def machine : Machine Connection Label where
  init := {}
  step := step

/-- The moves, case by case. -/
inductive Step (c : Connection) : Label → Connection → Prop
  | accept {error} (hwaiting : c.accept = .waiting) : Step c (.accept error) (c.onConnected error)
  | acceptReturns (hrunning : c.accept = .running) :
      Step c .acceptReturns (release { c with accept := .over })
  | sendData {data} (hserving : c.isServing) : Step c (.sendData data) (c.sendData data)
  | disconnect {e} (hserving : c.isServing) : Step c (.disconnect e) (c.disconnect e)
  | progress {i k w} (hw : c.link.writes[i]? = some w) (hopen : c.link.isOpen = true)
      (hk : w.written + k ≤ w.data.length) :
      Step c (.progress i k) { c with
        link := { c.link with
          writes := c.link.writes.set i { w with written := w.written + k }
          sent := c.link.sent ++ (c.link.out.writeBuffer.drop w.written).take k } }
  | written {i e w} (hreceiving : c.receiving = false) (hw : c.link.writes[i]? = some w)
      (hfull : w.written = w.data.length) :
      Step c (.written i e) ((c.takeWrite i).onBytesWritten w.data.length e).release
  | writeFailed {i msg e w} (hreceiving : c.receiving = false) (hw : c.link.writes[i]? = some w) :
      Step c (.writeFailed i msg e) ((c.takeWrite i).onWriteError msg e)
  | finishRead {error : Option String} (hpending : c.read = some .pending) :
      Step c (.finishRead error) { c with read := some (.done (error.map .other)) }
  | read {e error} (hreceiving : c.receiving = false) (hread : c.read = some (.done error)) :
      Step c (.read e) (onRead { c with read := none } e error)
  | received (hreceiving : c.receiving = true) : Step c .received c.afterReceive

theorem Step.of_step {c d : Connection} {a : Label} (h : c.step a = some d) : Step c a d := by
  unfold step at h
  cases a with
  | accept error =>
    obtain ⟨hwaiting, rfl⟩ := Option.ite_some_none_eq_some.mp h
    exact .accept hwaiting
  | acceptReturns =>
    obtain ⟨hrunning, rfl⟩ := Option.ite_some_none_eq_some.mp h
    exact .acceptReturns hrunning
  | sendData data =>
    obtain ⟨hserving, rfl⟩ := Option.ite_some_none_eq_some.mp h
    exact .sendData hserving
  | disconnect e =>
    obtain ⟨hserving, rfl⟩ := Option.ite_some_none_eq_some.mp h
    exact .disconnect hserving
  | progress i k =>
    dsimp only at h
    split at h
    next w hw =>
      obtain ⟨⟨hopen, hk⟩, rfl⟩ := Option.ite_some_none_eq_some.mp h
      exact .progress hw hopen hk
    next => cases h
  | written i e =>
    dsimp only at h
    split at h
    next w hreceiving hw =>
      obtain ⟨hfull, rfl⟩ := Option.ite_some_none_eq_some.mp h
      exact .written hreceiving hw hfull
    next => cases h
  | writeFailed i msg e =>
    dsimp only at h
    split at h
    next w hreceiving hw =>
      obtain rfl := Option.some.inj h
      exact .writeFailed hreceiving hw
    next => cases h
  | finishRead error =>
    obtain ⟨hpending, rfl⟩ := Option.ite_some_none_eq_some.mp h
    exact .finishRead hpending
  | read e =>
    dsimp only at h
    split at h
    next error hreceiving hread =>
      obtain rfl := Option.some.inj h
      exact .read hreceiving hread
    next => cases h
  | received =>
    obtain ⟨hreceiving, rfl⟩ := Option.ite_some_none_eq_some.mp h
    exact .received hreceiving

/-! ## Who owns a connection -/

/-- The handlers that have a copy of the `shared_ptr`. -/
def holders (c : Connection) : Nat :=
  (if c.accept = .over then 0 else 1) + c.link.writes.length +
    (if c.read.isSome then 1 else 0) + if c.receiving then 1 else 0

/-- The connection is owned by its holders, and by `n` handlers that are about to end. -/
structure Owned (n : Nat) (c : Connection) : Prop where
  useCount : c.useCount = c.holders + n
  destroyed : c.destroyed = true ↔ c.holders + n = 0
  faults : c.faults = 0

variable {c d : Connection} {n : Nat}

/-- A use of a connection that exists is no fault. -/
theorem use_of_alive (halive : c.destroyed = false) : c.use = c := by
  unfold use
  have hzero : c.faults + (if c.destroyed then 1 else 0) = c.faults := by simp [halive]
  rw [hzero]

@[simp] theorem perform_accept (c : Connection) (e : Option String) (r : WriteState × SocketCall) :
    (c.perform e r).accept = c.accept := by
  obtain ⟨w, call⟩ := r
  cases call <;> rfl

/-- Where only writes are started or completed, their number is what changes. -/
theorem holders_writes (haccept : d.accept = c.accept) (hread : d.read.isSome = c.read.isSome)
    (hreceiving : d.receiving = c.receiving) :
    d.holders + c.link.writes.length = c.holders + d.link.writes.length := by
  unfold holders
  rw [haccept, hread, hreceiving]
  omega

namespace Owned

theorem alive (h : Owned (n + 1) c) : c.destroyed = false := by
  rw [← Bool.not_eq_true, h.destroyed]
  omega

theorem alive_of_holders (h : Owned n c) (hpos : 0 < c.holders) : c.destroyed = false := by
  rw [← Bool.not_eq_true, h.destroyed]
  omega

/-- The same handlers hold the connection. -/
theorem congr (h : Owned n c) (huse : d.useCount = c.useCount) (hdes : d.destroyed = c.destroyed)
    (hfaults : d.faults = c.faults) (hholders : d.holders = c.holders) : Owned n d where
  useCount := by rw [huse, h.useCount, hholders]
  destroyed := by rw [hdes, h.destroyed, hholders]
  faults := hfaults.trans h.faults

/-- A handler that was a holder is called. -/
theorem deliver (h : Owned n c) (huse : d.useCount = c.useCount) (hdes : d.destroyed = c.destroyed)
    (hfaults : d.faults = c.faults) (hholders : c.holders = d.holders + 1) : Owned (n + 1) d where
  useCount := by rw [huse, h.useCount]; omega
  destroyed := by rw [hdes, h.destroyed]; omega
  faults := hfaults.trans h.faults

/-- A handler with another copy is made, and held by asio. -/
theorem retain (h : Owned n c) (halive : c.destroyed = false) (huse : d.useCount = c.useCount + 1)
    (hdes : d.destroyed = c.destroyed) (hfaults : d.faults = c.faults)
    (hholders : d.holders = c.holders + 1) : Owned n d where
  useCount := by rw [huse, h.useCount]; omega
  destroyed := by rw [hdes, halive]; simp [hholders]
  faults := hfaults.trans h.faults

/-- The end of a handler: the last one destroys the connection. -/
theorem release (h : Owned (n + 1) c) : Owned n c.release where
  useCount := by
    have huse := h.useCount
    show c.useCount - 1 = c.holders + n
    omega
  destroyed := by
    have huse := h.useCount
    show (c.destroyed || c.useCount - 1 == 0) = true ↔ c.holders + n = 0
    rw [h.alive, Bool.false_or, beq_iff_eq]
    omega
  faults := h.faults

theorem close (h : Owned n c) (halive : c.destroyed = false) (e : Option String) :
    Owned n (c.close e) := by
  unfold Connection.close
  rw [use_of_alive halive]
  refine h.congr rfl rfl rfl ?_
  unfold holders
  rw [Option.isSome_map]
  rfl

theorem perform (h : Owned n c) (halive : c.destroyed = false) (e : Option String)
    (r : WriteState × SocketCall) : Owned n (c.perform e r) := by
  obtain ⟨w, call⟩ := r
  cases call with
  | none => exact h.congr rfl rfl rfl rfl
  | asyncWrite =>
    refine h.retain halive rfl rfl rfl ?_
    have hwrites := holders_writes (c := c) (d := c.perform e (w, .asyncWrite)) rfl rfl rfl
    have hlen : (c.perform e (w, .asyncWrite)).link.writes.length = c.link.writes.length + 1 :=
      List.length_append
    omega
  | close =>
    have hout : Owned n { c with link := { c.link with out := w } } := h.congr rfl rfl rfl rfl
    exact hout.close halive e

/-- A read is started where there is none. -/
theorem process (h : Owned n c) (halive : c.destroyed = false) (hread : c.read = none) :
    Owned n c.process := by
  unfold Connection.process
  rw [use_of_alive halive]
  refine h.retain halive rfl rfl rfl ?_
  simp only [Connection.retain, holders, hread, Option.isSome_some, Option.isSome_none]
  simp only [if_true, Bool.false_eq_true, if_false]
  omega

end Owned

/-! ## The read loop -/

/-- The reads of a connection. -/
structure Reads (c : Connection) : Prop where
  /-- Before the accept there is nothing but the accept. -/
  waiting : c.accept = .waiting → c.link = { isOpen := false } ∧ c.read = none ∧
    c.receiving = false ∧ c.readErrors = []
  /-- An open socket is being read, or what was read is being handled. -/
  isRead : c.link.isOpen = true → c.read.isSome ∨ c.receiving = true
  exclusive : c.receiving = true → c.read = none
  pending : c.read = some .pending → c.link.isOpen = true
  aborted : c.read = some (.done (some .aborted)) → c.link.isOpen = false
  /-- A failed read is the last one. -/
  failed : c.readErrors ≠ [] → c.link.isOpen = false ∧ c.read = none ∧ c.receiving = false ∧
    c.readErrors.length = 1

namespace Reads

/-- What is done leaves the socket and the read as they are. -/
theorem congr (h : Reads c) (haccept : d.accept ≠ .waiting) (hread : d.read = c.read)
    (hreceiving : d.receiving = c.receiving) (herrors : d.readErrors = c.readErrors)
    (hopen : d.link.isOpen = c.link.isOpen) : Reads d where
  waiting hw := absurd hw haccept
  isRead := by rw [hread, hreceiving, hopen]; exact h.isRead
  exclusive := by rw [hread, hreceiving]; exact h.exclusive
  pending := by rw [hread, hopen]; exact h.pending
  aborted := by rw [hread, hopen]; exact h.aborted
  failed := by rw [hread, hreceiving, hopen, herrors]; exact h.failed

/-- The socket is closed; a read that is pending is aborted. -/
theorem closed (h : Reads c) (haccept : d.accept ≠ .waiting)
    (hread : d.read = c.read.map OpStatus.abort) (hreceiving : d.receiving = c.receiving)
    (herrors : d.readErrors = c.readErrors) (hopen : d.link.isOpen = false) : Reads d where
  waiting hw := absurd hw haccept
  isRead ho := absurd ho (by simp [hopen])
  exclusive := by
    rw [hread, hreceiving]
    exact fun hr => by rw [h.exclusive hr]; rfl
  pending hp := by
    rw [hread, Option.map_eq_some_iff] at hp
    obtain ⟨op, -, hop⟩ := hp
    cases op <;> cases hop
  aborted _ := hopen
  failed he := by
    obtain ⟨-, hnone, hrec, hlen⟩ := h.failed (herrors ▸ he)
    exact ⟨hopen, by rw [hread, hnone]; rfl, hreceiving.trans hrec, by rw [herrors, hlen]⟩

theorem perform (h : Reads c) (hne : c.accept ≠ .waiting) (e : Option String)
    (r : WriteState × SocketCall) : Reads (c.perform e r) := by
  obtain ⟨w, call⟩ := r
  cases call with
  | none => exact h.congr hne rfl rfl rfl rfl
  | asyncWrite => exact h.congr hne rfl rfl rfl rfl
  | close => exact h.closed hne rfl rfl rfl rfl

/-- Where nothing is being read and no read has failed, the connection can be read. -/
theorem process (hne : c.accept ≠ .waiting) (hreceiving : c.receiving = false)
    (herrors : c.readErrors = []) : Reads c.process where
  waiting hw := absurd hw hne
  isRead _ := Or.inl rfl
  exclusive hr := absurd (hreceiving.symm.trans hr) Bool.false_ne_true
  pending hp := by
    by_contra hclosed
    have hstatus : c.process.read = some (.done (some badDescriptor)) :=
      congrArg some (if_neg hclosed)
    rw [hstatus] at hp
    cases hp
  aborted ha := by
    by_contra hopen
    have hopen : c.link.isOpen = true := (Bool.not_eq_false _).mp hopen
    have hstatus : c.process.read = some .pending := congrArg some (if_pos hopen)
    rw [hstatus] at ha
    cases ha
  failed he := absurd herrors he

end Reads

/-! ## Every move keeps the owners and the reads -/

/-- What holds of a connection in the event loop. -/
structure Sound (c : Connection) : Prop where
  owned : Owned 0 c
  reads : Reads c

namespace Sound

theorem init : Sound {} where
  owned := ⟨rfl, by decide, rfl⟩
  reads :=
    { waiting := fun _ => ⟨rfl, rfl, rfl, rfl⟩
      isRead := fun h => absurd h Bool.false_ne_true
      exclusive := fun _ => rfl
      pending := nofun
      aborted := nofun
      failed := fun h => absurd rfl h }

/-- A connection with operations has been accepted, or is about to be. -/
theorem ne_waiting_of_mem (h : Sound c) {w : AsyncWrite} (hw : w ∈ c.link.writes) :
    c.accept ≠ .waiting := by
  intro hwaiting
  rw [(h.reads.waiting hwaiting).1] at hw
  cases hw

/-- The handler of a write is called. -/
theorem deliver_write (h : Sound c) {i : Nat} {w : AsyncWrite} (hw : c.link.writes[i]? = some w) :
    Owned 1 (c.takeWrite i) ∧ Reads (c.takeWrite i) := by
  refine ⟨h.owned.deliver rfl rfl rfl ?_, h.reads.congr ?_ rfl rfl rfl rfl⟩
  · obtain ⟨hlt, -⟩ := List.getElem?_eq_some_iff.mp hw
    have hlen : (c.takeWrite i).link.writes.length + 1 = c.link.writes.length :=
      List.length_eraseIdx_add_one hlt
    have hwrites := holders_writes (c := c) (d := c.takeWrite i) rfl rfl rfl
    omega
  · exact h.ne_waiting_of_mem (List.mem_of_getElem? hw)

theorem accepts (h : Sound c) (hwaiting : c.accept = .waiting) (error : Option String) :
    Sound (c.onConnected error) := by
  obtain ⟨hlink, hread, hreceiving, herrors⟩ := h.reads.waiting hwaiting
  have hholders : c.holders = 1 := by
    simp [holders, hwaiting, hlink, hread, hreceiving]
  cases error with
  | some msg =>
    have hover : Owned 1 { c with accept := .over } := by
      refine h.owned.deliver rfl rfl rfl ?_
      simp [holders, hwaiting, hlink, hread, hreceiving]
    refine ⟨hover.release, ?_⟩
    exact h.reads.congr (d := release { c with accept := .over }) nofun rfl rfl rfl rfl
  | none =>
    have hrunning : Owned 0 { c with accept := .running, link := {} } := by
      refine h.owned.congr rfl rfl rfl ?_
      rw [hholders]
      simp [holders, hread, hreceiving]
    have halive := h.owned.alive_of_holders (hholders ▸ Nat.one_pos)
    exact ⟨hrunning.process halive hread, Reads.process nofun hreceiving herrors⟩

/-- The handler of the read is called. -/
theorem reads_result (h : Sound c) (hreceiving : c.receiving = false) {error : Option OpError}
    (hread : c.read = some (.done error)) (e : Option String) :
    Sound (onRead { c with read := none } e error) := by
  have hholders : c.holders = { c with read := none : Connection }.holders + 1 := by
    simp only [holders, hread, Option.isSome_some, Option.isSome_none]
    simp only [if_true, Bool.false_eq_true, if_false]
    omega
  have hone : Owned 1 { c with read := none } := h.owned.deliver rfl rfl rfl hholders
  have hne : c.accept ≠ .waiting := by
    intro hwaiting
    rw [(h.reads.waiting hwaiting).2.1] at hread
    cases hread
  have hnone : c.readErrors = [] := by
    by_contra herrors
    rw [(h.reads.failed herrors).2.1] at hread
    cases hread
  unfold onRead
  rw [use_of_alive (c := { c with read := none }) hone.alive]
  match error with
  | some .aborted =>
    have hclosed := h.reads.aborted hread
    refine ⟨hone.release, ?_⟩
    exact
      { waiting := fun hw => absurd hw hne
        isRead := fun ho => absurd (hclosed.symm.trans ho) Bool.false_ne_true
        exclusive := fun _ => rfl
        pending := nofun
        aborted := nofun
        failed := fun he => absurd hnone he }
  | some (.other msg) =>
    -- the socket is closed and not read again: this is the only report
    have hreport : Owned 1 { c with read := none, readErrors := c.readErrors ++ [msg] } :=
      hone.congr rfl rfl rfl rfl
    refine ⟨(hreport.close hone.alive e).release, ?_⟩
    exact
      { waiting := fun hw => absurd hw hne
        isRead := nofun
        exclusive := fun _ => rfl
        pending := nofun
        aborted := nofun
        failed := fun _ => ⟨rfl, rfl, hreceiving, by
          show (c.readErrors ++ [msg]).length = 1
          rw [hnone]
          rfl⟩ }
  | none =>
    refine ⟨h.owned.congr rfl rfl rfl ?_, ?_⟩
    · rw [hholders]
      simp [holders, hreceiving]
    · exact
        { waiting := fun hw => absurd hw hne
          isRead := fun _ => Or.inr rfl
          exclusive := fun _ => rfl
          pending := nofun
          aborted := nofun
          failed := fun he => absurd hnone he }

/-- What was read has been handled: the connection is read again. -/
theorem received (h : Sound c) (hreceiving : c.receiving = true) : Sound c.afterReceive := by
  have hnone := h.reads.exclusive hreceiving
  have hne : c.accept ≠ .waiting := by
    intro hwaiting
    exact Bool.false_ne_true ((h.reads.waiting hwaiting).2.2.1.symm.trans hreceiving)
  have herrors : c.readErrors = [] := by
    by_contra he
    exact Bool.false_ne_true ((h.reads.failed he).2.2.1.symm.trans hreceiving)
  have hone : Owned 1 { c with receiving := false } := by
    refine h.owned.deliver rfl rfl rfl ?_
    simp [holders, hreceiving]
  -- the next read is started before the handler and its copy are destroyed
  refine ⟨(hone.process hone.alive hnone).release, ?_⟩
  have hreads : Reads (process { c with receiving := false }) := Reads.process hne rfl herrors
  exact hreads.congr hne rfl rfl rfl rfl

/-- **Every move keeps the owners and the reads of a connection.** -/
theorem step (h : Sound c) {a : Label} (hstep : c.step a = some d) : Sound d := by
  have hserves : c.isServing = true → c.accept ≠ .waiting ∧ c.destroyed = false := by
    intro hserving
    simpa [isServing] using hserving
  cases Step.of_step hstep with
  | @accept error hwaiting => exact h.accepts hwaiting error
  | acceptReturns hrunning =>
    have hone : Owned 1 { c with accept := .over } := by
      refine h.owned.deliver rfl rfl rfl ?_
      simp only [holders, hrunning]
      simp only [reduceCtorEq, if_true, if_false]
      omega
    exact ⟨hone.release, h.reads.congr nofun rfl rfl rfl rfl⟩
  | sendData hserving =>
    obtain ⟨hne, halive⟩ := hserves hserving
    unfold sendData
    rw [use_of_alive halive]
    exact ⟨h.owned.perform halive none _, h.reads.perform hne none _⟩
  | @disconnect e hserving =>
    obtain ⟨hne, halive⟩ := hserves hserving
    unfold disconnect
    rw [use_of_alive halive]
    exact ⟨h.owned.perform halive e _, h.reads.perform hne e _⟩
  | progress hw =>
    refine ⟨h.owned.congr rfl rfl rfl ?_, ?_⟩
    · simp [holders]
    · exact h.reads.congr (h.ne_waiting_of_mem (List.mem_of_getElem? hw)) rfl rfl rfl rfl
  | @written i e w hreceiving hw =>
    obtain ⟨howned, hreads⟩ := h.deliver_write hw
    have hne := h.ne_waiting_of_mem (List.mem_of_getElem? hw)
    unfold onBytesWritten
    rw [use_of_alive howned.alive]
    have hread := hreads.perform hne e (c.link.out.onBytesWritten w.data.length)
    exact ⟨(howned.perform howned.alive e _).release,
      hread.congr (perform_accept (c.takeWrite i) e _ ▸ hne) rfl rfl rfl rfl⟩
  | @writeFailed i msg e w hreceiving hw =>
    obtain ⟨howned, hreads⟩ := h.deliver_write hw
    have hne := h.ne_waiting_of_mem (List.mem_of_getElem? hw)
    unfold onWriteError
    rw [use_of_alive howned.alive]
    have hreport : Owned 1 { c.takeWrite i with
        link := { (c.takeWrite i).link with
          failed := true
          events := c.link.events ++ [(ErrorEvent.socketWriteError, msg)] } } :=
      howned.congr rfl rfl rfl rfl
    exact ⟨(hreport.close howned.alive e).release, hreads.closed hne rfl rfl rfl rfl⟩
  | @finishRead error hpending =>
    refine ⟨h.owned.congr rfl rfl rfl (by simp [holders, hpending]), ?_⟩
    exact
      { waiting := fun hw => by
          rw [(h.reads.waiting hw).2.1] at hpending
          cases hpending
        isRead := fun _ => Or.inl rfl
        exclusive := fun hr => by
          rw [h.reads.exclusive hr] at hpending
          cases hpending
        pending := nofun
        aborted := fun ha => by cases error <;> cases ha
        failed := fun he => by
          rw [(h.reads.failed he).2.1] at hpending
          cases hpending }
  | @read e error hreceiving hread => exact h.reads_result hreceiving hread e
  | received hreceiving => exact h.received hreceiving

end Sound

theorem sound_of_reachable (h : machine.Reachable c) : Sound c :=
  h.invariant Sound.init fun _ _ _ hc hstep => hc.step hstep

theorem holders_eq_zero : c.holders = 0 ↔
    c.accept = .over ∧ c.link.writes = [] ∧ c.read = none ∧ c.receiving = false := by
  unfold holders
  simp only [Nat.add_eq_zero_iff, List.length_eq_zero_iff, ite_eq_left_iff, ite_eq_right_iff,
    Nat.one_ne_zero, imp_false, not_not, Bool.not_eq_true, Option.isSome_eq_false_iff,
    Option.isNone_iff_eq_none, and_assoc]

/-- **A connection lives exactly as long as asio holds an operation of it.** In every reachable
state its use count is the number of its handlers; it is destroyed once the accept, the read and
all writes are done and no handler of it runs, and no handler uses it after that. It is never
destroyed with its socket open. -/
theorem lifetime (h : machine.Reachable c) :
    c.useCount = c.holders ∧ c.faults = 0 ∧
      (c.destroyed = true ↔
        c.accept = .over ∧ c.link.writes = [] ∧ c.read = none ∧ c.receiving = false) ∧
      (c.link.isOpen = true → c.destroyed = false) := by
  have hsound := sound_of_reachable h
  have hdestroyed : c.destroyed = true ↔ c.holders = 0 := hsound.owned.destroyed
  refine ⟨hsound.owned.useCount, hsound.owned.faults, hdestroyed.trans holders_eq_zero,
    fun hopen => ?_⟩
  rw [← Bool.not_eq_true, hdestroyed, holders_eq_zero]
  rintro ⟨-, -, hread, hreceiving⟩
  rcases hsound.reads.isRead hopen with hr | hr
  · rw [hread] at hr
    cases hr
  · exact Bool.false_ne_true (hreceiving.symm.trans hr)

/-- The peer resets a connection while it is answered: the write in flight is the last to hold
it. -/
theorem lifetime_reset : machine.run machine.init
      [.accept none, .acceptReturns, .finishRead none, .read none, .sendData [1, 2], .received,
        .finishRead (some "Connection reset by peer"), .read none] =
      some { link := { out := { writeBuffer := [1, 2], bytesToWrite := 2 }, isOpen := false,
                       writes := [{ data := [1, 2] }] },
             accept := .over, readErrors := ["Connection reset by peer"] } ∧
    (1 : Nat) = holders { link := { out := { writeBuffer := [1, 2], bytesToWrite := 2 },
                                    isOpen := false, writes := [{ data := [1, 2] }] },
                          accept := .over, readErrors := ["Connection reset by peer"] } :=
  have hrun : machine.run machine.init
      [.accept none, .acceptReturns, .finishRead none, .read none, .sendData [1, 2], .received,
        .finishRead (some "Connection reset by peer"), .read none] =
      some { link := { out := { writeBuffer := [1, 2], bytesToWrite := 2 }, isOpen := false,
                       writes := [{ data := [1, 2] }] },
             accept := .over, readErrors := ["Connection reset by peer"] } := by decide
  ⟨hrun, (lifetime ⟨_, hrun⟩).1⟩

/-! ## The last read -/

theorem perform_readErrors (c : Connection) (e : Option String) (r : WriteState × SocketCall) :
    (c.perform e r).readErrors = c.readErrors := by
  obtain ⟨w, call⟩ := r
  cases call <;> rfl

/-- The errors that have been reported stay. -/
theorem readErrors_step {a : Label} (hstep : c.step a = some d) :
    c.readErrors <+: d.readErrors := by
  have heq : ∀ {d : Connection}, d.readErrors = c.readErrors → c.readErrors <+: d.readErrors :=
    fun hd => hd ▸ List.prefix_refl _
  cases Step.of_step hstep with
  | @accept error =>
    cases error with
    | none => exact heq rfl
    | some msg => exact heq rfl
  | sendData | disconnect | written => exact heq (perform_readErrors _ _ _)
  | acceptReturns | finishRead | received | progress | writeFailed => exact heq rfl
  | @read e error =>
    match error with
    | none => exact heq rfl
    | some .aborted => exact heq rfl
    | some (.other msg) => exact List.prefix_append _ _

/-- **A connection is read until a read fails.** As long as its socket is open, exactly one read of
it is outstanding, or what was read is being handled. At most one `SocketReadError` is reported, and
from then on the socket is closed, and nothing is read or received any more. -/
theorem read_until_error (h : machine.Reachable c) :
    (c.link.isOpen = true → (c.read.isSome ↔ c.receiving = false)) ∧
      c.readErrors.length ≤ 1 ∧
      ∀ l d, c.readErrors ≠ [] → machine.run c l = some d →
        d.readErrors = c.readErrors ∧ d.link.isOpen = false ∧ d.read = none ∧
          d.receiving = false := by
  have hsound := sound_of_reachable h
  refine ⟨fun hopen => ?_, ?_, fun l d herrors hl => ?_⟩
  · constructor
    · intro hread
      by_contra hreceiving
      rw [hsound.reads.exclusive (by simpa using hreceiving)] at hread
      cases hread
    · intro hreceiving
      rcases hsound.reads.isRead hopen with hr | hr
      · exact hr
      · exact absurd (hreceiving.symm.trans hr) Bool.false_ne_true
  · rcases eq_or_ne c.readErrors [] with hnone | herrors
    · simp [hnone]
    · exact Nat.le_of_eq (hsound.reads.failed herrors).2.2.2
  · have hkeep : c.readErrors <+: d.readErrors := by
      refine Machine.run_invariant (I := fun d => c.readErrors <+: d.readErrors) ?_ hl
        (List.prefix_refl _)
      exact fun _ _ _ hu hstep => hu.trans (readErrors_step hstep)
    have hd : d.readErrors ≠ [] := by
      rintro hnil
      rw [hnil, List.prefix_nil] at hkeep
      exact herrors hkeep
    obtain ⟨hclosed, hread, hreceiving, hlen⟩ := (sound_of_reachable (h.run hl)).reads.failed hd
    have hone := (hsound.reads.failed herrors).2.2.2
    exact ⟨(hkeep.eq_of_length (hone.trans hlen.symm)).symm, hclosed, hread, hreceiving⟩

/-- The peer has closed the connection, a timer answers, and the write in flight fails. -/
theorem read_until_error_late_answer : ∃ d,
    machine.run { link := { out := { writeBuffer := [1], bytesToWrite := 1 }, isOpen := false,
                            writes := [{ data := [1] }] },
                  accept := .over, readErrors := ["End of file"] }
      [.sendData [2], .writeFailed 0 "Operation aborted." none] = some d ∧
    d.readErrors = ["End of file"] ∧ d.destroyed = true :=
  have hrun : machine.run machine.init
      [.accept none, .acceptReturns, .finishRead none, .read none, .sendData [1], .received,
        .finishRead (some "End of file"), .read none] =
      some { link := { out := { writeBuffer := [1], bytesToWrite := 1 }, isOpen := false,
                       writes := [{ data := [1] }] },
             accept := .over, readErrors := ["End of file"] } := by decide
  ⟨_, rfl, ((read_until_error ⟨_, hrun⟩).2.2
    [.sendData [2], .writeFailed 0 "Operation aborted." none] _ (by decide) rfl).1, rfl⟩

end Connection

end Asyncgi
