import Mathlib.Data.List.Nodup
import Mathlib.Logic.Function.Basic
import Asyncgi.Output.WriteState
import Asyncgi.Transition.Run

/-!
# The listeners of the servers

A `Server`'s `ServerService` makes a `ConnectionListener` for every address it is told to listen on.
A listener has one accept outstanding from its construction on, and its completion handler is to
start the next one. The listeners take their connections from the `ConnectionFactory` of their
server. The factories of all servers that are made over one `IO` refer to the same `IOService`, and
its `nextIO` gives each connection its context.

What is taken from asio: an accept that has been started completes once, with success or with an
error, in a later turn of the event loop.

## Main definitions

* `Servers`: the listeners, the connections made for them and the accepts outstanding
* `Servers.machine`: their runs, over any completions of the accepts
* `Listening`: the listener goes on listening

## Main results

* `listening_iff`: a listener goes on listening exactly as long as none of its accepts fails
-/

namespace Asyncgi

/-- A `Server`, over the one `IO`. -/
abbrev ServerId := Nat

/-- A `ConnectionListener`: its server, and its number in the order of construction there. -/
structure ListenerId where
  server : ServerId
  number : Nat
  deriving DecidableEq, Repr

/-- A `Connection` that a `ConnectionFactory` has made, in that order. -/
abbrev AcceptorConnId := Nat

/-- An `async_accept`: its listener, and the connection whose socket it was started on. -/
structure Accept where
  listener : ListenerId
  connection : AcceptorConnId
  deriving DecidableEq, Repr

/-- What happens at the listeners. -/
inductive ListenerEvent
  | started (accept : Accept)
  | accepted (accept : Accept)
  | failed (accept : Accept) (msg : String)
  /-- `Connection::process` is called. -/
  | process (connection : AcceptorConnId)
  /-- A call of the event handler. -/
  | report (event : ErrorEvent) (msg : String)
  deriving DecidableEq, Repr

/-- The servers over one `IO`: their listeners, and the `IOService` that they share. -/
structure Servers where
  /-- The number of contexts, `ioPool_.size()`. -/
  poolSize : Nat := 1
  /-- `ioIndex_`, an atomic `std::size_t`. -/
  ioIndex : BitVec 64 := 0
  /-- The context of every connection made. -/
  connections : List Nat := []
  /-- The number of listeners that a server has constructed. -/
  listeners : ServerId → Nat := fun _ => 0
  /-- The accepts outstanding. -/
  accepts : List Accept := []
  trace : List ListenerEvent := []

/-- `IOService::nextIO`. -/
def IOService.nextIO (s : Servers) : Nat × Servers :=
  (s.ioIndex.toNat % s.poolSize, { s with ioIndex := s.ioIndex + 1 })

/-- `ConnectionFactory::makeConnection`. -/
def ConnectionFactory.makeConnection (s : Servers) : AcceptorConnId × Servers :=
  let (io, s) := IOService.nextIO s
  (s.connections.length, { s with connections := s.connections ++ [io] })

namespace ConnectionListener

/-- `ConnectionListener::waitForConnection`. -/
def waitForConnection (s : Servers) (i : ListenerId) : Servers :=
  let (connection, s) := ConnectionFactory.makeConnection s
  { s with
    accepts := s.accepts ++ [⟨i, connection⟩]
    trace := s.trace ++ [.started ⟨i, connection⟩] }

section

variable (s : Servers) (i : ListenerId)

@[simp] theorem waitForConnection_connections :
    (waitForConnection s i).connections = s.connections ++ [s.ioIndex.toNat % s.poolSize] := rfl

@[simp] theorem waitForConnection_listeners :
    (waitForConnection s i).listeners = s.listeners := rfl

@[simp] theorem waitForConnection_accepts :
    (waitForConnection s i).accepts = s.accepts ++ [⟨i, s.connections.length⟩] := rfl

@[simp] theorem waitForConnection_trace :
    (waitForConnection s i).trace = s.trace ++ [.started ⟨i, s.connections.length⟩] := rfl

end

/-- `ConnectionListener::onConnected`. -/
def onConnected (s : Servers) (a : Accept) : Option String → Servers
  -- the error branch returns without waiting again
  | some msg => { s with trace := s.trace ++ [.report .connectionError msg] }
  | none => waitForConnection { s with trace := s.trace ++ [.process a.connection] } a.listener

end ConnectionListener

namespace Servers

/-- The listener has been constructed. -/
def Constructed (s : Servers) (i : ListenerId) : Prop := i.number < s.listeners i.server

/-- The server has constructed another listener. -/
def addListener (s : Servers) (server : ServerId) : Servers :=
  { s with listeners := Function.update s.listeners server (s.listeners server + 1) }

end Servers

/-- `ServerService::listen`; the constructor of the listener waits for a connection. -/
def ServerService.listen (s : Servers) (server : ServerId) : Servers :=
  ConnectionListener.waitForConnection (s.addListener server) ⟨server, s.listeners server⟩

namespace Servers

/-- The moves of servers that listen. -/
inductive Label
  | listen (server : ServerId)
  /-- An accept completes, with an error or with success. -/
  | complete (a : Accept) (error : Option String)
  deriving DecidableEq, Repr

/-- One move. -/
def step (s : Servers) : Label → Option Servers
  | .listen server => some (ServerService.listen s server)
  | .complete a error =>
    if a ∈ s.accepts then
      let event := error.elim (ListenerEvent.accepted a) (ListenerEvent.failed a)
      some (ConnectionListener.onConnected
        { s with accepts := s.accepts.erase a, trace := s.trace ++ [event] } a error)
    else none

/-- The servers over an `IO` with `poolSize` contexts. -/
def machine (poolSize : Nat) : Machine Servers Label where
  init := { poolSize := poolSize }
  step := step

section

variable {s : Servers} {i : ListenerId} {server : ServerId}

theorem constructed_addListener :
    (s.addListener server).Constructed i ↔ s.Constructed i ∨ i = ⟨server, s.listeners server⟩ := by
  obtain ⟨r, n⟩ := i
  unfold Constructed addListener
  by_cases hr : r = server
  · subst hr
    simp only [Function.update_self, Nat.lt_succ_iff_lt_or_eq, ListenerId.mk.injEq, true_and]
  · simp [hr]

/-- The listener that is constructed is new. -/
theorem not_constructed : ¬ s.Constructed ⟨server, s.listeners server⟩ := Nat.lt_irrefl _

end

end Servers

namespace ListenerEvent

/-- The connection on which an accept is started. -/
def startedOn : ListenerEvent → Option AcceptorConnId
  | started a => some a.connection
  | _ => none

/-- The message of a failed accept. -/
def failure : ListenerEvent → Option String
  | failed _ msg => some msg
  | _ => none

/-- The message of a reported connection error. -/
def reported : ListenerEvent → Option String
  | report .connectionError msg => some msg
  | _ => none

end ListenerEvent

/-- The listener `i` goes on listening: it has one accept outstanding, the accepts were all started
on connections of their own, its accepted connections are processed once, and the failed accepts
have been reported. -/
structure Listening (i : ListenerId) (s : Servers) : Prop where
  outstanding : ∃ c, s.accepts.filter (·.listener = i) = [⟨i, c⟩] ∧ .started ⟨i, c⟩ ∈ s.trace
  fresh : (s.trace.filterMap ListenerEvent.startedOn).Nodup
  processed : ∀ c, .accepted ⟨i, c⟩ ∈ s.trace → s.trace.count (.process c) = 1
  reported : s.trace.filterMap ListenerEvent.failure = s.trace.filterMap ListenerEvent.reported

/-- An accept of the listener fails. -/
def Servers.Label.fails (i : ListenerId) : Servers.Label → Prop
  | complete a (some _) => a.listener = i
  | _ => False

/-! ## What holds of all listeners -/

/-- The connections of the accepts outstanding are new; those that were accepted are processed. -/
structure Accepting (s : Servers) : Prop where
  made : ∀ c ∈ s.trace.filterMap ListenerEvent.startedOn, c < s.connections.length
  fresh : (s.trace.filterMap ListenerEvent.startedOn).Nodup
  constructed : ∀ a ∈ s.accepts, s.Constructed a.listener
  started : ∀ a ∈ s.accepts, .started a ∈ s.trace
  distinct : (s.accepts.map Accept.connection).Nodup
  waiting : ∀ a ∈ s.accepts, .process a.connection ∉ s.trace
  processing : ∀ c, .process c ∈ s.trace → c < s.connections.length
  processed : ∀ a, .accepted a ∈ s.trace → s.trace.count (.process a.connection) = 1
  reported : s.trace.filterMap ListenerEvent.failure = s.trace.filterMap ListenerEvent.reported

namespace Accepting

variable {s : Servers} {a : Accept} {i : ListenerId}

theorem init (poolSize : Nat) : Accepting { poolSize := poolSize } where
  made := nofun
  fresh := List.nodup_nil
  constructed := nofun
  started := nofun
  distinct := List.nodup_nil
  waiting := nofun
  processing := nofun
  processed := nofun
  reported := rfl

theorem made_of_mem (h : Accepting s) (ha : a ∈ s.accepts) : a.connection < s.connections.length :=
  h.made _ (List.mem_filterMap.mpr ⟨_, h.started a ha, rfl⟩)

/-- Another accept is started, on a connection made for it. -/
theorem wait (h : Accepting s) (hi : s.Constructed i) :
    Accepting (ConnectionListener.waitForConnection s i) where
  made := by
    intro c hc
    simp only [ConnectionListener.waitForConnection_trace, List.filterMap_append, List.mem_append]
      at hc
    rw [ConnectionListener.waitForConnection_connections, List.length_append, List.length_singleton]
    rcases hc with hc | hc
    · exact Nat.lt_succ_of_lt (h.made c hc)
    · obtain rfl : c = s.connections.length := by simpa [ListenerEvent.startedOn] using hc
      exact Nat.lt_succ_self _
  fresh := by
    rw [ConnectionListener.waitForConnection_trace, List.filterMap_append, List.nodup_append]
    refine ⟨h.fresh, List.nodup_singleton _, fun c hc d hd => ?_⟩
    obtain rfl := List.mem_singleton.mp hd
    exact Nat.ne_of_lt (h.made c hc)
  constructed := by
    intro a ha
    rcases List.mem_append.mp ha with ha | ha
    · exact h.constructed a ha
    · obtain rfl := List.mem_singleton.mp ha
      exact hi
  started := by
    intro a ha
    rw [ConnectionListener.waitForConnection_trace]
    rcases List.mem_append.mp ha with ha | ha
    · exact List.mem_append_left _ (h.started a ha)
    · obtain rfl := List.mem_singleton.mp ha
      exact List.mem_append_right _ (List.mem_singleton_self _)
  distinct := by
    rw [ConnectionListener.waitForConnection_accepts, List.map_append, List.nodup_append]
    refine ⟨h.distinct, List.nodup_singleton _, fun c hc d hd => ?_⟩
    obtain ⟨a, ha, rfl⟩ := List.mem_map.mp hc
    obtain rfl := List.mem_singleton.mp hd
    exact Nat.ne_of_lt (h.made_of_mem ha)
  waiting := by
    intro a ha hprocess
    have hprocess : .process a.connection ∈ s.trace := by simpa using hprocess
    rcases List.mem_append.mp ha with ha | ha
    · exact h.waiting a ha hprocess
    · obtain rfl := List.mem_singleton.mp ha
      exact absurd rfl (Nat.ne_of_lt (h.processing _ hprocess))
  processing := by
    intro c hc
    rw [ConnectionListener.waitForConnection_connections, List.length_append, List.length_singleton]
    exact Nat.lt_succ_of_lt (h.processing c (by simpa using hc))
  processed := by
    intro a ha
    rw [ConnectionListener.waitForConnection_trace, List.count_append,
      h.processed a (by simpa using ha)]
    rfl
  reported := by
    rw [ConnectionListener.waitForConnection_trace, List.filterMap_append, List.filterMap_append,
      h.reported]
    rfl

/-- The events of a completion are not those of the start of an accept. -/
theorem startedOn_eq {es : List ListenerEvent} (hes : es.filterMap ListenerEvent.startedOn = []) :
    (s.trace ++ es).filterMap ListenerEvent.startedOn =
      s.trace.filterMap ListenerEvent.startedOn := by
  rw [List.filterMap_append, hes, List.append_nil]

/-- An accept of the listeners completes with success. -/
theorem accepted (h : Accepting s) (ha : a ∈ s.accepts) :
    Accepting { s with
      accepts := s.accepts.erase a
      trace := s.trace ++ [.accepted a, .process a.connection] } where
  made := by
    rw [startedOn_eq]
    · exact h.made
    · rfl
  fresh := by
    rw [startedOn_eq]
    · exact h.fresh
    · rfl
  constructed b hb := h.constructed b (List.mem_of_mem_erase hb)
  started b hb := List.mem_append_left _ (h.started b (List.mem_of_mem_erase hb))
  distinct := h.distinct.sublist (List.erase_sublist.map _)
  waiting := by
    intro b hb hprocess
    have hmem := List.mem_of_mem_erase hb
    have hprocess : .process b.connection ∈ s.trace ∨ b.connection = a.connection := by
      simpa using hprocess
    rcases hprocess with hprocess | hsame
    · exact h.waiting b hmem hprocess
    · obtain rfl := List.inj_on_of_nodup_map h.distinct hmem ha hsame
      exact (h.distinct.of_map _).not_mem_erase hb
  processing := by
    intro c hc
    have hc : .process c ∈ s.trace ∨ c = a.connection := by simpa using hc
    rcases hc with hc | rfl
    · exact h.processing c hc
    · exact h.made_of_mem ha
  processed := by
    intro b hb
    have hb : .accepted b ∈ s.trace ∨ b = a := by simpa using hb
    rw [List.count_append]
    rcases hb with hb | rfl
    · have hone := h.processed b hb
      have hne : b.connection ≠ a.connection := by
        intro hsame
        rw [hsame] at hone
        exact h.waiting a ha (List.count_pos_iff.mp (hone ▸ Nat.one_pos))
      rw [hone]
      simp [hne.symm]
    · rw [List.count_eq_zero.mpr (h.waiting b ha)]
      simp
  reported := by
    rw [List.filterMap_append, List.filterMap_append, h.reported]
    rfl

/-- An accept of the listeners fails. -/
theorem failed (h : Accepting s) (msg : String) :
    Accepting { s with
      accepts := s.accepts.erase a
      trace := s.trace ++ [.failed a msg, .report .connectionError msg] } where
  made := by
    rw [startedOn_eq]
    · exact h.made
    · rfl
  fresh := by
    rw [startedOn_eq]
    · exact h.fresh
    · rfl
  constructed b hb := h.constructed b (List.mem_of_mem_erase hb)
  started b hb := List.mem_append_left _ (h.started b (List.mem_of_mem_erase hb))
  distinct := h.distinct.sublist (List.erase_sublist.map _)
  waiting b hb hprocess :=
    h.waiting b (List.mem_of_mem_erase hb) (by simpa using hprocess)
  processing c hc := h.processing c (by simpa using hc)
  processed b hb := by
    rw [List.count_append, h.processed b (by simpa using hb)]
    simp
  reported := by
    rw [List.filterMap_append, List.filterMap_append, h.reported]
    rfl

/-- Every move keeps this. -/
theorem step (h : Accepting s) {l : Servers.Label} {t : Servers} (hstep : s.step l = some t) :
    Accepting t := by
  cases l with
  | listen server =>
    obtain rfl := Option.some.inj hstep
    have hadd : Accepting (s.addListener server) := { h with
      constructed := fun a ha => Servers.constructed_addListener.mpr (Or.inl (h.constructed a ha)) }
    exact hadd.wait (Servers.constructed_addListener.mpr (Or.inr rfl))
  | complete a error =>
    obtain ⟨ha, rfl⟩ := Option.ite_some_none_eq_some.mp hstep
    cases error with
    | none =>
      have haccepted := (h.accepted ha).wait (h.constructed a ha)
      simpa [ConnectionListener.onConnected] using haccepted
    | some msg => simpa [ConnectionListener.onConnected] using h.failed (a := a) msg

end Accepting

/-! ## One listener -/

/-- The listener, once constructed, has one accept outstanding. -/
def Waits (i : ListenerId) (s : Servers) : Prop :=
  s.Constructed i → ∃ c, s.accepts.filter (·.listener = i) = [⟨i, c⟩]

section Listener

variable {i : ListenerId} {s t : Servers} {a : Accept} {l : Servers.Label}

theorem Listening.of_waits (h : Accepting s) (hwaits : Waits i s) (hi : s.Constructed i) :
    Listening i s where
  outstanding := by
    obtain ⟨c, hc⟩ := hwaits hi
    have hmem : ⟨i, c⟩ ∈ s.accepts.filter (·.listener = i) := hc ▸ List.mem_singleton_self _
    exact ⟨c, hc, h.started _ (List.mem_filter.mp hmem).1⟩
  fresh := h.fresh
  processed c hc := h.processed _ hc
  reported := h.reported

/-- The completion of its accept leaves the listener none. -/
theorem Waits.erase_self (h : Accepting s) (hwaits : Waits i s) (ha : a ∈ s.accepts)
    (hi : a.listener = i) : (s.accepts.erase a).filter (·.listener = i) = [] := by
  obtain ⟨c, hc⟩ := hwaits (hi ▸ h.constructed a ha)
  have hmem : a ∈ s.accepts.filter (·.listener = i) := List.mem_filter.mpr ⟨ha, by simpa using hi⟩
  rw [← List.erase_filter, hc]
  rw [hc, List.mem_singleton] at hmem
  rw [hmem, List.erase_cons_head]

/-- The completion of another listener's accept leaves it what it has. -/
theorem erase_other (hi : a.listener ≠ i) :
    (s.accepts.erase a).filter (·.listener = i) = s.accepts.filter (·.listener = i) := by
  rw [← List.erase_filter, List.erase_of_not_mem]
  intro hmem
  exact hi (by simpa using (List.mem_filter.mp hmem).2)

/-- A move at which no accept of the listener fails leaves it waiting. -/
theorem Waits.step (h : Accepting s) (hwaits : Waits i s) (hl : ¬ l.fails i)
    (hstep : s.step l = some t) : Waits i t := by
  intro hi
  cases l with
  | listen server =>
    obtain rfl := Option.some.inj hstep
    have haccepts : (ServerService.listen s server).accepts =
        s.accepts ++ [⟨⟨server, s.listeners server⟩, s.connections.length⟩] := rfl
    rw [haccepts, List.filter_append]
    rcases Servers.constructed_addListener.mp hi with hi | rfl
    · obtain ⟨c, hc⟩ := hwaits hi
      have hne : ⟨server, s.listeners server⟩ ≠ i := by
        rintro rfl
        exact Servers.not_constructed hi
      refine ⟨c, ?_⟩
      rw [hc]
      simp [hne]
    · have hnone : s.accepts.filter (·.listener = ⟨server, s.listeners server⟩) = [] := by
        rw [List.filter_eq_nil_iff]
        intro a ha hlistener
        have hconstructed := h.constructed a ha
        rw [of_decide_eq_true hlistener] at hconstructed
        exact Servers.not_constructed hconstructed
      refine ⟨s.connections.length, ?_⟩
      rw [hnone]
      simp
  | complete a error =>
    obtain ⟨ha, rfl⟩ := Option.ite_some_none_eq_some.mp hstep
    cases error with
    | none =>
      rw [ConnectionListener.onConnected, ConnectionListener.waitForConnection_accepts,
        List.filter_append]
      by_cases hself : a.listener = i
      · refine ⟨s.connections.length, ?_⟩
        rw [hwaits.erase_self h ha hself]
        simp [hself]
      · obtain ⟨c, hc⟩ := hwaits hi
        refine ⟨c, ?_⟩
        rw [erase_other hself, hc]
        simp [hself]
    | some msg =>
      show ∃ c, (s.accepts.erase a).filter _ = _
      rw [erase_other hl]
      exact hwaits hi

/-- After a failed accept, the listener has none outstanding. -/
theorem Waits.fails (h : Accepting s) (hwaits : Waits i s) (hl : l.fails i)
    (hstep : s.step l = some t) : t.Constructed i ∧ ¬ Listening i t := by
  cases l with
  | listen => cases hl
  | complete a error =>
    obtain ⟨ha, rfl⟩ := Option.ite_some_none_eq_some.mp hstep
    cases error with
    | none => cases hl
    | some msg =>
      have hi : a.listener = i := hl
      refine ⟨hi ▸ h.constructed a ha, fun hlistening => ?_⟩
      obtain ⟨c, hc, -⟩ := hlistening.outstanding
      have hnone := hwaits.erase_self h ha hi
      exact absurd (hnone.symm.trans hc) nofun

end Listener

/-- **A listener listens until an accept of it fails.** In a run of the servers, the listener goes
on listening after every move, from its construction on, if and only if none of its accepts
fails. -/
theorem listening_iff (poolSize : Nat) (i : ListenerId) (l : List Servers.Label) :
    (Servers.machine poolSize).EachStep (fun _ _ t => t.Constructed i → Listening i t)
        (Servers.machine poolSize).init l ↔
      (Servers.machine poolSize).EachStep (fun _ a _ => ¬ a.fails i)
        (Servers.machine poolSize).init l := by
  apply Machine.eachStep_iff (J := fun s => Accepting s ∧ Waits i s)
  · rintro s a t ⟨haccepting, hwaits⟩ hstep
    constructor
    · intro hlistening hfails
      obtain ⟨hi, hnot⟩ := hwaits.fails haccepting hfails hstep
      exact hnot (hlistening hi)
    · intro hfails hi
      exact .of_waits (haccepting.step hstep) (hwaits.step haccepting hfails hstep) hi
  · rintro s a t ⟨haccepting, hwaits⟩ hfails hstep
    exact ⟨haccepting.step hstep, hwaits.step haccepting hfails hstep⟩
  · exact ⟨Accepting.init poolSize, nofun⟩

/-- One accept fails, for want of a descriptor: the listener is left without an accept. -/
theorem deaf_after_failure : ∃ s, (Servers.machine 1).run (Servers.machine 1).init
      [.listen 0, .complete ⟨⟨0, 0⟩, 0⟩ none,
        .complete ⟨⟨0, 0⟩, 1⟩ (some "Too many open files")] = some s ∧
    s.accepts = [] ∧ ¬ Listening ⟨0, 0⟩ s := by
  refine ⟨_, rfl, rfl, fun hlistening => ?_⟩
  obtain ⟨c, hc, -⟩ := hlistening.outstanding
  cases hc

end Asyncgi
