import Asyncgi.Connection.Lifetime
import Asyncgi.Output.Lossless
import Asyncgi.Transition.Measure
import Asyncgi.Transition.Simulation

/-!
# The end of a connection

The write side of a `Connection` is a link. So a connection that is destroyed has put on the socket
all it was given, or has reported a `SocketWriteError`. And once its socket is closed, its
destruction cannot be held up: asio has only finitely many handlers of it to call, whatever they do,
unless a `Responder` goes on sending.

## Main definitions

* `Connection.Carries`: the link that a connection's write side is
* `Connection.work`: what is left to be done for a connection whose socket is closed

## Main results

* `Connection.no_silent_loss`: a connection is not destroyed with bytes that are neither sent nor
  reported
* `Connection.drains`: a connection with a closed socket is destroyed
-/

namespace Asyncgi

/-! ## Failures are reported -/

namespace Link

variable {s t : Link} {side : Side}

/-- A write that fails is reported. -/
def Reported (s : Link) : Prop :=
  s.failed = true → ∃ msg, (ErrorEvent.socketWriteError, msg) ∈ s.events

theorem Reported.of_events (h : Reported s) (hfailed : t.failed = s.failed)
    (hevents : s.events <+: t.events) : Reported t := by
  intro hf
  obtain ⟨msg, hmsg⟩ := h (hfailed ▸ hf)
  exact ⟨msg, hevents.subset hmsg⟩

theorem Reported.perform (h : Reported s) (e : Option String) (r : WriteState × SocketCall) :
    Reported (s.perform e r) := by
  obtain ⟨w, call⟩ := r
  cases call with
  | none => exact h
  | asyncWrite => exact h
  | close => exact h.of_events (t := close { s with out := w } e) rfl (List.prefix_append _ _)

theorem Reported.step (h : Reported s) {a : Label} (ht : (machine side).step s a = some t) :
    Reported t := by
  cases Step.of_step ht with
  | sendData | disconnect => exact h.perform _ _
  | progress => exact h
  | @complete i => exact Reported.perform (s := { s with writes := s.writes.eraseIdx i }) h _ _
  | @fail i msg =>
    intro _
    -- a server's connection reports before it closes, a client's does not close
    cases side with
    | connection =>
      exact ⟨msg, List.mem_append_left _ (List.mem_append_right _ (List.mem_singleton_self _))⟩
    | clientConnection =>
      exact ⟨msg, List.mem_append_right _ (List.mem_singleton_self _)⟩
  | close => exact h.of_events rfl (List.prefix_append _ _)

theorem reported_of_run {l : List Label} (h : (machine side).run {} l = some s) : Reported s :=
  Machine.run_invariant (fun _ _ _ hu hstep => hu.step hstep) h nofun

end Link

namespace Connection

variable {c d : Connection}

/-! ## The link of a connection -/

/-- The bytes that a move hands to `sendData`. -/
def Label.input : Label → Bytes
  | sendData data => data
  | _ => []

/-- All bytes that are handed to `sendData` in a run. -/
def given (l : List Label) : Bytes := l.flatMap Label.input

/-- The write side of the connection is the link `q`; before the accept, and where that fails, it is
not used. -/
def Carries (c : Connection) (q : Link) : Prop :=
  Sound c ∧ (c.accept ≠ .waiting ∧ c.link = q ∨
    c.link = { isOpen := false } ∧ q = {} ∧ (c.accept = .waiting ∨ c.holders = 0))

theorem perform_link (c : Connection) (e : Option String) (r : WriteState × SocketCall) :
    (c.perform e r).link = c.link.perform e r := by
  obtain ⟨w, call⟩ := r
  cases call <;> rfl

/-- Before the accept there is nothing to be done but the accept; after its failure, nothing. -/
theorem Sound.accept_of_idle (h : Sound c) (hidle : c.accept = .waiting ∨ c.holders = 0)
    {a : Label} (hstep : c.step a = some d) :
    ∃ error, a = .accept error ∧ c.accept = .waiting ∧ d = c.onConnected error := by
  have hnone : c.link.writes = [] ∧ c.read = none ∧ c.receiving = false ∧ c.accept ≠ .running ∧
      c.isServing = false := by
    rcases hidle with hwaiting | hzero
    · obtain ⟨hlink, hread, hreceiving, -⟩ := h.reads.waiting hwaiting
      exact ⟨by rw [hlink], hread, hreceiving, by simp [hwaiting], by simp [isServing, hwaiting]⟩
    · obtain ⟨hover, hwrites, hread, hreceiving⟩ := holders_eq_zero.mp hzero
      have hdestroyed := h.owned.destroyed.mpr hzero
      exact ⟨hwrites, hread, hreceiving, by simp [hover], by simp [isServing, hdestroyed]⟩
  obtain ⟨hwrites, hread, hreceiving, hrunning, hserving⟩ := hnone
  cases Step.of_step hstep with
  | accept hwaiting => exact ⟨_, rfl, hwaiting, rfl⟩
  | _ => simp_all

theorem carries_step : Machine.Matches machine (Link.machine .connection) Carries
    (fun a k => Link.accepted k = a.input) (fun _ _ => True) := by
  rintro c a d q ⟨hsound, hcase⟩ - hstep
  change c.step a = some d at hstep
  have hnext := hsound.step hstep
  rcases hcase with ⟨hne, rfl⟩ | ⟨hlink, rfl, hidle⟩
  · have hstay : a.input = [] → d.accept ≠ .waiting → d.link = c.link →
        ∃ k q, Link.accepted k = a.input ∧ (Link.machine .connection).run c.link k = some q ∧
          Carries d q := fun hin haccept hd =>
      ⟨[], c.link, hin.symm, rfl, hnext, Or.inl ⟨haccept, hd⟩⟩
    have hmove : ∀ b, b.input = a.input → (Link.machine .connection).step c.link b = some d.link →
        d.accept ≠ .waiting → ∃ k q, Link.accepted k = a.input ∧
          (Link.machine .connection).run c.link k = some q ∧ Carries d q := by
      intro b hb hlink haccept
      refine ⟨[b], d.link, by simpa [Link.accepted] using hb, ?_, hnext, Or.inl ⟨haccept, rfl⟩⟩
      rw [Machine.run_cons, hlink]
      rfl
    cases Step.of_step hstep with
    | accept hwaiting => exact absurd hwaiting hne
    | acceptReturns => exact hstay rfl (fun h => by cases h) rfl
    | @sendData data =>
      refine hmove (.sendData data) rfl ?_ ?_
      · exact congrArg some (perform_link c.use _ _).symm
      · exact perform_accept c.use _ _ ▸ hne
    | @disconnect e =>
      refine hmove (.disconnect e) rfl ?_ ?_
      · exact congrArg some (perform_link c.use _ _).symm
      · exact perform_accept c.use _ _ ▸ hne
    | @progress i k w hw hopen hk =>
      exact hmove (.progress i k) rfl (by simp [Link.machine, Link.step, hw, hopen, hk]) hne
    | @written i e w hreceiving hw hfull =>
      refine hmove (.complete i e) rfl ?_ ?_
      · simp only [Link.machine, Link.step, hw, hfull, if_true]
        exact congrArg some (perform_link (c.takeWrite i).use _ _).symm
      · exact perform_accept (c.takeWrite i).use _ _ ▸ hne
    | @writeFailed i msg e w hreceiving hw =>
      exact hmove (.fail i msg e) rfl (by simp only [Link.machine, Link.step, hw]; rfl) hne
    | finishRead => exact hstay rfl hne rfl
    | @read e error =>
      rcases error with _ | (_ | msg)
      · exact hstay rfl hne rfl
      · exact hstay rfl hne rfl
      · exact hmove (.close e) rfl rfl hne
    | received => exact hstay rfl hne rfl
  · obtain ⟨error, rfl, hwaiting, rfl⟩ := hsound.accept_of_idle hidle hstep
    cases error with
    | none => exact ⟨[], {}, rfl, rfl, hnext, Or.inl ⟨(fun h => by cases h), rfl⟩⟩
    | some msg =>
      obtain ⟨-, hread, hreceiving, -⟩ := hsound.reads.waiting hwaiting
      refine ⟨[], {}, rfl, rfl, hnext, Or.inr ⟨hlink, rfl, Or.inr ?_⟩⟩
      refine holders_eq_zero.mpr ⟨rfl, ?_, hread, hreceiving⟩
      exact (congrArg Link.writes hlink).trans rfl

theorem accepted_flatten {l : List Label} {ks : List (List Link.Label)}
    (h : List.Forall₂ (fun a k => Link.accepted k = a.input) l ks) :
    Link.accepted ks.flatten = given l := by
  induction h with
  | nil => rfl
  | @cons a k l ks hk _ ih =>
    have happend : Link.accepted (k ++ ks.flatten) = Link.accepted k ++ Link.accepted ks.flatten :=
      List.flatMap_append
    rw [List.flatten_cons, happend, hk, ih]
    rfl

/-- **The write side of a connection is a link**: every run of a connection is, for its write side,
a run of a link that is given the same bytes. -/
theorem refines_link {l : List Label} (h : machine.run machine.init l = some c) :
    ∃ ks q, (Link.machine .connection).run {} ks = some q ∧ Link.accepted ks = given l ∧
      Carries c q := by
  have hinit : Carries machine.init {} := ⟨Sound.init, Or.inr ⟨rfl, rfl, Or.inl rfl⟩⟩
  obtain ⟨ks, q, hks, hq, hcarries⟩ :=
    carries_step.run hinit (Machine.eachStep_of_forall (fun _ _ _ => trivial) _ _) h
  exact ⟨ks.flatten, q, hq, accepted_flatten hks, hcarries⟩

/-- **A connection is not destroyed with bytes it has lost silently.** What it has put on the socket
is at any time a prefix of what it was given; and when it is destroyed it is all of it, or the
failure of a write has been reported. -/
theorem no_silent_loss {l : List Label} (h : machine.run machine.init l = some c) :
    c.link.sent <+: given l ∧
      (c.destroyed = true → c.link.sent = given l ∨
        ∃ msg, (ErrorEvent.socketWriteError, msg) ∈ c.link.events) := by
  obtain ⟨ks, q, hq, hgiven, hsound, hcase⟩ := refines_link h
  have hphase := Link.phase_run hq
  rw [hgiven] at hphase
  have hsent : c.link.sent = q.sent := by
    rcases hcase with ⟨-, rfl⟩ | ⟨hlink, rfl, -⟩
    · rfl
    · rw [hlink]
  rw [hsent]
  refine ⟨hphase.sent_isPrefixOf, fun hdestroyed => ?_⟩
  -- without a write in flight either all is sent or a write has failed
  obtain ⟨-, hwrites, -, -⟩ := holders_eq_zero.mp (hsound.owned.destroyed.mp hdestroyed)
  rcases hcase with ⟨-, rfl⟩ | ⟨-, rfl, -⟩
  · by_cases hfailed : c.link.failed = true
    · exact Or.inr (Link.reported_of_run hq hfailed)
    · exact Or.inl (hphase.sent_of_no_writes (by simpa using hfailed) hwrites)
  · exact Or.inl (hphase.sent_of_no_writes rfl rfl)

/-- A request is answered and the connection closed; the aborted read is the last to hold it. -/
theorem no_silent_loss_answered : ∃ c, machine.run machine.init
      [.accept none, .acceptReturns, .finishRead none, .read none, .sendData [1, 2],
        .disconnect none, .received, .progress 0 2, .written 0 none, .read none] = some c ∧
    c.destroyed = true ∧ c.link.events = [] ∧ c.link.sent <+: [1, 2] :=
  have hrun : machine.run machine.init
      [.accept none, .acceptReturns, .finishRead none, .read none, .sendData [1, 2],
        .disconnect none, .received, .progress 0 2, .written 0 none, .read none] =
      some { link := { out := { writeBuffer := [1, 2] }, isOpen := false, sent := [1, 2] },
             accept := .over, useCount := 0, destroyed := true } := by decide
  ⟨_, hrun, rfl, rfl, (no_silent_loss hrun).1⟩

/-! ## After the socket is closed -/

/-- A handler of the connection is called, or goes on. -/
def Label.isDelivery : Label → Bool
  | acceptReturns | written _ _ | writeFailed _ _ _ | read _ | received => true
  | _ => false

/-- `sendData` is called. -/
def Label.isSend : Label → Bool
  | sendData _ => true
  | _ => false

/-- The connection was accepted, and its socket has been closed. -/
def Closed (c : Connection) : Prop := c.accept ≠ .waiting ∧ c.link.isOpen = false

/-- The end of the accept's handler. -/
def acceptWork : AcceptStatus → Nat
  | .over => 0
  | _ => 1

/-- What was read is handled, and the closed socket is read once more. -/
def receiveWork : Bool → Nat
  | true => 2
  | false => 0

/-- The deliveries that a read of a closed socket can lead to: what it has read is handled, and then
the closed socket is read once more. -/
def readWork : Option OpStatus → Nat
  | none => 0
  | some (.done none) => 3
  | some _ => 1

/-- The write that waiting bytes can lead to. -/
def waitingWork (w : WriteState) : Nat := if w.nextWriteBuffer = [] then 0 else 1

/-- The deliveries that are left for a connection whose socket is closed. -/
def work (c : Connection) : Nat :=
  acceptWork c.accept + c.link.writes.length + waitingWork c.link.out + readWork c.read +
    receiveWork c.receiving

theorem readWork_abort (r : Option OpStatus) : readWork (r.map OpStatus.abort) = readWork r := by
  rcases r with _ | (_ | _) <;> rfl

theorem waitingWork_le (w : WriteState) : waitingWork w ≤ 1 := by
  unfold waitingWork
  split <;> omega

/-- Besides the waiting bytes, only a write that is started changes the work. -/
theorem work_perform (c : Connection) (e : Option String) (r : WriteState × SocketCall) :
    (c.perform e r).work + waitingWork c.link.out =
      c.work + waitingWork r.1 + if r.2 = .asyncWrite then 1 else 0 := by
  obtain ⟨w, call⟩ := r
  cases call with
  | none =>
    simp only [perform, work, reduceCtorEq, if_false]
    omega
  | asyncWrite =>
    simp only [perform, retain, work, List.length_append, List.length_singleton, if_true]
    omega
  | close =>
    have hclose : waitingWork w.onClose = waitingWork w := rfl
    simp only [perform, close, use, Link.close, work, readWork_abort, hclose, reduceCtorEq,
      if_false]
    omega

/-- `sendData` adds a write, or makes bytes wait. -/
theorem waitingWork_sendData (w : WriteState) (data : Bytes) :
    waitingWork (w.sendData data).1 + (if (w.sendData data).2 = .asyncWrite then 1 else 0) ≤
      waitingWork w + 1 := by
  by_cases hbusy : w.bytesToWrite = 0
  · have hnone : waitingWork (w.sendData data).1 = 0 := by
      unfold WriteState.sendData
      rw [if_neg (not_not.mpr hbusy)]
      dsimp only
      split
      · rfl
      next hnext => exact if_pos (not_not.mp hnext)
    rw [hnone]
    split <;> omega
  · rw [WriteState.sendData_of_busy hbusy]
    have := waitingWork_le { w with nextWriteBuffer := w.nextWriteBuffer ++ data }
    simp only [reduceCtorEq, if_false]
    omega

/-- `onBytesWritten` starts a write only of bytes that waited. -/
theorem waitingWork_onBytesWritten (w : WriteState) (n : Nat) :
    waitingWork (w.onBytesWritten n).1 + (if (w.onBytesWritten n).2 = .asyncWrite then 1 else 0) ≤
      waitingWork w := by
  rcases Nat.lt_or_ge n w.bytesToWrite with hlt | hge
  · rw [WriteState.onBytesWritten_of_lt hlt]
    exact Nat.le_refl _
  · by_cases hnext : w.nextWriteBuffer = []
    · rw [WriteState.onBytesWritten_of_empty hge hnext]
      cases w.disconnectRequested
      · exact Nat.le_refl _
      · exact Nat.le_refl _
    · rw [WriteState.onBytesWritten_of_waiting hge hnext]
      simp [waitingWork, hnext]

theorem work_takeWrite {i : Nat} {w : AsyncWrite} (hw : c.link.writes[i]? = some w) :
    (c.takeWrite i).work + 1 = c.work := by
  obtain ⟨hlt, -⟩ := List.getElem?_eq_some_iff.mp hw
  have hlen := List.length_eraseIdx_add_one hlt
  simp only [takeWrite, work]
  omega

theorem perform_closed {e : Option String} {r : WriteState × SocketCall}
    (h : c.link.isOpen = false) : (c.perform e r).link.isOpen = false := by
  obtain ⟨w, call⟩ := r
  cases call
  · exact h
  · exact h
  · rfl

/-- **On a closed socket every delivery uses up work**, and only `sendData` makes some. -/
theorem work_step (h : Sound c) (hclosed : Closed c) {a : Label} (hstep : c.step a = some d) :
    Closed d ∧ d.work + (if a.isDelivery then 1 else 0) ≤ c.work + if a.isSend then 1 else 0 := by
  obtain ⟨hne, hopen⟩ := hclosed
  cases Step.of_step hstep with
  | accept hwaiting => exact absurd hwaiting hne
  | acceptReturns hrunning =>
    refine ⟨⟨nofun, hopen⟩, ?_⟩
    simp only [release, work, acceptWork, hrunning, Label.isDelivery, Label.isSend, if_true,
      if_false, Bool.false_eq_true]
    omega
  | @sendData data =>
    refine ⟨⟨perform_accept c.use _ _ ▸ hne, perform_closed (c := c.use) hopen⟩, ?_⟩
    have hperform := work_perform c.use none (c.link.out.sendData data)
    have hsend := waitingWork_sendData c.link.out data
    have huse : c.use.work = c.work := rfl
    have hout : c.use.link.out = c.link.out := rfl
    rw [huse, hout] at hperform
    simp only [Label.isDelivery, Label.isSend, if_true, Bool.false_eq_true, if_false]
    unfold sendData
    omega
  | @disconnect e =>
    refine ⟨⟨perform_accept c.use _ _ ▸ hne, perform_closed (c := c.use) hopen⟩, ?_⟩
    have hwork := work_perform c.use e c.link.out.disconnect
    have huse : c.use.work = c.work := rfl
    have hout : waitingWork c.use.link.out = waitingWork c.link.out.disconnect.1 := by
      unfold WriteState.disconnect
      dsimp only
      split <;> rfl
    have hcall : c.link.out.disconnect.2 ≠ .asyncWrite := by
      unfold WriteState.disconnect
      dsimp only
      split <;> nofun
    rw [huse, hout, if_neg hcall] at hwork
    simp only [Label.isDelivery, Label.isSend, Bool.false_eq_true, if_false]
    unfold disconnect
    omega
  | progress _ hisOpen => exact absurd (hopen.symm.trans hisOpen) Bool.false_ne_true
  | @written i e w hreceiving hw =>
    refine ⟨⟨perform_accept (c.takeWrite i).use _ _ ▸ hne,
      perform_closed (c := (c.takeWrite i).use) hopen⟩, ?_⟩
    -- the next write is paid for by the bytes that waited for it
    have hwork := work_perform (c.takeWrite i).use e (c.link.out.onBytesWritten w.data.length)
    have hwaiting := waitingWork_onBytesWritten c.link.out w.data.length
    have htake := work_takeWrite hw
    have huse : (c.takeWrite i).use.work = (c.takeWrite i).work := rfl
    have hout : (c.takeWrite i).use.link.out = c.link.out := rfl
    have hrelease : ((c.takeWrite i).onBytesWritten w.data.length e).release.work =
      ((c.takeWrite i).use.perform e (c.link.out.onBytesWritten w.data.length)).work := rfl
    rw [huse, hout] at hwork
    simp only [Label.isDelivery, Label.isSend, Bool.false_eq_true, if_true, if_false]
    omega
  | @writeFailed i msg e w hreceiving hw =>
    refine ⟨⟨hne, rfl⟩, ?_⟩
    have htake := work_takeWrite hw
    have hwork : ((c.takeWrite i).onWriteError msg e).work = (c.takeWrite i).work := by
      have hread := readWork_abort c.read
      show acceptWork c.accept + (c.takeWrite i).link.writes.length + waitingWork c.link.out +
        readWork (c.read.map OpStatus.abort) + receiveWork c.receiving = _
      rw [hread]
      rfl
    simp only [Label.isDelivery, Label.isSend, Bool.false_eq_true, if_true, if_false]
    omega
  | finishRead hpending =>
    exact absurd (hopen.symm.trans (h.reads.pending hpending)) Bool.false_ne_true
  | @read e error hreceiving hread =>
    rcases error with _ | (_ | msg)
    · refine ⟨⟨hne, hopen⟩, ?_⟩
      simp only [onRead, use, work, hread, hreceiving, readWork, receiveWork, Label.isDelivery,
        Label.isSend, Bool.false_eq_true, if_true, if_false]
      omega
    · refine ⟨⟨hne, hopen⟩, ?_⟩
      simp only [onRead, release, work, hread, readWork, Label.isDelivery, Label.isSend,
        Bool.false_eq_true, if_true, if_false]
      omega
    · refine ⟨⟨hne, rfl⟩, ?_⟩
      have hclose : waitingWork c.link.out.onClose = waitingWork c.link.out := rfl
      simp only [onRead, close, use, release, Link.close, work, hread, hclose, readWork,
        Option.map_none, Label.isDelivery, Label.isSend, Bool.false_eq_true, if_true, if_false]
      omega
  | received hreceiving =>
    refine ⟨⟨hne, hopen⟩, ?_⟩
    have hnone := h.reads.exclusive hreceiving
    simp only [afterReceive, process, use, retain, release, badDescriptor, work, hnone, hopen,
      hreceiving, readWork, receiveWork, Label.isDelivery, Label.isSend, Bool.false_eq_true,
      if_true, if_false]
    omega

theorem work_run (h : Sound c) (hclosed : Closed c) {l : List Label}
    (hl : machine.run c l = some d) :
    Sound d ∧ Closed d ∧
      d.work + l.countP Label.isDelivery ≤ c.work + l.countP Label.isSend := by
  obtain ⟨⟨hd, hdclosed⟩, hwork⟩ := Machine.run_measure (M := machine)
    (I := fun c => Sound c ∧ Closed c) (A := fun _ => True) (μ := work)
    (fun a => if a.isDelivery then 1 else 0) (fun a => if a.isSend then 1 else 0)
    (fun c a d _ ⟨hsound, hclosed⟩ hstep => by
      obtain ⟨hnext, hle⟩ := work_step hsound hclosed hstep
      exact ⟨⟨hsound.step hstep, hnext⟩, hle⟩) (fun _ _ => trivial) ⟨h, hclosed⟩ hl
  rw [Machine.sum_map_ite, Machine.sum_map_ite, Nat.one_mul, Nat.one_mul] at hwork
  exact ⟨hd, hdclosed, hwork⟩

/-- On a closed socket every operation has its result, and its handler can be called. -/
theorem exists_delivery (h : Sound c) (hclosed : Closed c) (halive : c.destroyed = false) :
    ∃ a, a.isDelivery = true ∧ (c.step a).isSome := by
  by_contra hnone
  have hstuck : ∀ a, a.isDelivery = true → c.step a = none := fun a ha => by
    by_contra hstep
    exact hnone ⟨a, ha, Option.isSome_iff_ne_none.mpr hstep⟩
  have hreceiving : c.receiving = false := by
    by_contra hr
    rw [Bool.not_eq_false] at hr
    exact absurd (hstuck .received rfl) (by simp [Connection.step, hr])
  have hread : c.read = none := by
    rcases hr : c.read with _ | (_ | error)
    · rfl
    · exact absurd (hclosed.2.symm.trans (h.reads.pending hr)) Bool.false_ne_true
    · exact absurd (hstuck (.read none) rfl) (by simp [Connection.step, hr, hreceiving])
  have hwrites : c.link.writes = [] := by
    rcases hw : c.link.writes with _ | ⟨w, ws⟩
    · rfl
    · exact absurd (hstuck (.writeFailed 0 "Operation aborted." none) rfl)
        (by simp [Connection.step, hw, hreceiving])
  have haccept : c.accept = .over := by
    rcases ha : c.accept with _ | _ | _
    · exact absurd ha hclosed.1
    · exact absurd (hstuck .acceptReturns rfl) (by simp [Connection.step, ha])
    · rfl
  have hzero := holders_eq_zero.mpr ⟨haccept, hwrites, hread, hreceiving⟩
  exact Bool.false_ne_true (halive.symm.trans (h.owned.destroyed.mpr hzero))

/-- **A connection whose socket is closed is destroyed.** As long as it is not, asio has a handler
of it to call; and in any run it has at most five such calls more than there are writes in flight
and later calls of `sendData`. -/
theorem drains (h : machine.Reachable c) (hclosed : Closed c) {l : List Label}
    (hl : machine.run c l = some d) :
    l.countP Label.isDelivery ≤ c.link.writes.length + 5 + l.countP Label.isSend ∧
      (d.destroyed = false → ∃ a, a.isDelivery = true ∧ (machine.step d a).isSome) := by
  have hsound := sound_of_reachable h
  obtain ⟨hd, hdclosed, hwork⟩ := work_run hsound hclosed hl
  refine ⟨?_, exists_delivery hd hdclosed⟩
  have hbound : c.work ≤ c.link.writes.length + 5 := by
    have haccept : acceptWork c.accept ≤ 1 := by cases c.accept <;> decide
    have hwaiting := waitingWork_le c.link.out
    have hread : readWork c.read + receiveWork c.receiving ≤ 3 := by
      cases hreceiving : c.receiving with
      | true =>
        rw [hsound.reads.exclusive hreceiving]
        decide
      | false =>
        rcases c.read with _ | (_ | _ | _)
        all_goals simp [readWork, receiveWork]
    unfold work
    omega
  omega

/-- The socket is closed while a request is received: the connection is read once more, in vain. -/
theorem drains_while_receiving : ∃ c d,
    machine.run machine.init [.accept none, .acceptReturns, .finishRead none, .read none,
      .disconnect none] = some c ∧ Closed c ∧
    machine.run c [.received, .read none] = some d ∧ d.destroyed = true ∧
    d.readErrors = ["Bad file descriptor"] ∧ 2 ≤ c.link.writes.length + 5 + 0 :=
  have hrun : machine.run machine.init [.accept none, .acceptReturns, .finishRead none, .read none,
      .disconnect none] =
      some { link := { isOpen := false }, accept := .over, receiving := true } := by decide
  ⟨_, _, hrun, ⟨nofun, rfl⟩, rfl, rfl, rfl,
    (drains ⟨_, hrun⟩ ⟨nofun, rfl⟩ (l := [.received, .read none]) rfl).1⟩

end Connection

end Asyncgi
