import Asyncgi.Runtime.Registry

/-!
# Completions and destroyed objects

The handlers of client connections and timers capture their objects by address. When an object is
destroyed its pending operations are aborted, and their handlers are called later. The handler of
an aborted wait or read returns at once; every other handler uses its object, as does the code that
follows a user's callback.

## Main definitions

* `AsyncOp.spares`, `Frame.spares`: a completion, or the rest of a handler, uses none of the objects
* `SparesCompletions`: no completion and no rest of a handler uses what a step destroys
* `Sound`: no completion and no rest of a handler uses a destroyed object

## Main results

* `no_faults`: in the runs that destroy objects only where completions spare them, no handler uses
  a destroyed object
-/

namespace Asyncgi

/-- The completion, as it stands, uses none of the objects `p`. -/
def AsyncOp.spares (s : State) (p : Object → Bool) (a : AsyncOp) : Bool :=
  match a.handler with
  | .oneShot t _ | .periodic t _ _ => !p (.timer t) || a.status.failed
  -- the response handler is called, and its queue launched, whatever the result
  | .connect c => !p (.client (s.conns c).service) && (!p (.conn c) || a.status.failed)
  | .read c => !p (.conn c) || a.status == .done (some .aborted)
  -- the error branch of a write reports through a member
  | .write c _ => !p (.conn c)
  | .postedTask _ => true

/-- The rest of a handler uses none of the objects `p`. -/
def Frame.spares (s : State) (p : Object → Bool) : Frame → Bool
  | afterOneShot t | afterPeriodic t _ _ | afterFuture t => !p (.timer t)
  | afterResponse c => !p (.client (s.conns c).service)
  | afterReceive c => !p (.conn c)
  | _ => true

/-- Once the objects that the step destroys are gone and their pending operations aborted, no
completion and no rest of a handler uses them. -/
def SparesCompletions (s : State) (l : Label) : Prop :=
  (∀ a ∈ s.ops, (a.abort (·.isOn (s.destroys l))).spares s (s.destroys l)) ∧
    ∀ f ∈ s.stack, f.spares s (s.destroys l)

instance (s : State) (l : Label) : Decidable (SparesCompletions s l) := by
  unfold SparesCompletions
  infer_instance

/-- No completion and no rest of a handler uses a destroyed object, and none has. -/
structure Sound (s : State) : Prop where
  ops : ∀ a ∈ s.ops, a.spares s s.dead
  stack : ∀ f ∈ s.stack, f.spares s s.dead
  inProgress : ∀ c ∈ s.inProgress, s.dead (.conn c) = false
  service : ∀ c < s.connCount, s.dead (.conn c) = false →
    s.dead (.client (s.conns c).service) = false
  timer : ∀ c < s.connCount, s.dead (.client (s.conns c).service) = false →
    s.dead (.timer (s.conns c).timer) = false
  connMade : ∀ c, s.dead (.conn c) = true → c < s.connCount
  timerMade : ∀ t, s.dead (.timer t) = true → t < s.timerCount
  faults : s.faults = []

/-! ## What completions use -/

section Spares

variable {s t : State} {p q : Object → Bool} {a : AsyncOp} {f : Frame}

/-- Which objects are used depends on the services of the connections it refers to. -/
theorem AsyncOp.spares_congr
    (hservice : ∀ c, a.handler = .connect c → (t.conns c).service = (s.conns c).service) :
    a.spares t p = a.spares s p := by
  unfold AsyncOp.spares
  split <;> first | rfl | rw [hservice _ ‹_›]

theorem Frame.spares_congr
    (hservice : ∀ c, f = .afterResponse c → (t.conns c).service = (s.conns c).service) :
    f.spares t p = f.spares s p := by
  unfold Frame.spares
  split <;> first | rfl | rw [hservice _ rfl]

/-- What spares two kinds of objects spares both. -/
theorem AsyncOp.spares_or (hp : a.spares s p) (hq : a.spares s q) :
    a.spares s fun o => p o || q o := by
  unfold AsyncOp.spares at hp hq ⊢
  split <;> simp_all
  all_goals tauto

theorem Frame.spares_or (hp : f.spares s p) (hq : f.spares s q) :
    f.spares s fun o => p o || q o := by
  unfold Frame.spares at hp hq ⊢
  split <;> simp_all

/-- An operation whose completion would use none of the objects, whatever its result, gets one. -/
theorem AsyncOp.spares_result {h : Handler} {delay : Milliseconds}
    (hpending : (AsyncOp.mk h .pending delay).spares s p) (status : OpStatus) :
    (AsyncOp.mk h status delay).spares s p := by
  -- a pending operation may still succeed, so it spares them without the help of an error
  cases h <;> simp_all [AsyncOp.spares, OpStatus.failed]

/-- A completion that uses none of the objects does not either when it is aborted. -/
theorem AsyncOp.spares_abort (h : a.spares s p) (k : Handler → Bool) :
    (a.abort k).spares s p := by
  unfold AsyncOp.abort
  split
  next hk =>
    obtain ⟨handler, status, delay⟩ := a
    obtain rfl : status = .pending := hk.2
    exact AsyncOp.spares_result h _
  next => exact h

/-- A wait that has expired uses its timer, and so does what its handler does after the task. -/
theorem WaitsFor.spares {u : TimerId} {task : Task} {h : Handler} {k : Frame}
    (hk : WaitsFor u task h k) (hspares : (AsyncOp.mk h (.done none) 0).spares s p) :
    p (.timer u) = false ∧ k.spares s p := by
  cases hk <;> simpa [AsyncOp.spares, Frame.spares, OpStatus.failed] using hspares

/-- A read or a write uses its connection, unless it is a read that was aborted. -/
theorem AsyncOp.transfer_spares {c : ConnId} {h : Handler} {error : Option OpError}
    (hspares : (AsyncOp.mk h (.done error) 0).spares s p) (hh : h.transfersOn c)
    (herror : error = some .aborted → ∃ n, h = .write c n) : p (.conn c) = false := by
  cases h <;> simp only [Handler.transfersOn, beq_iff_eq, Bool.false_eq_true] at hh
  case read d =>
    subst hh
    have hread : error ≠ some .aborted := fun he => by
      obtain ⟨_, hwrite⟩ := herror he
      cases hwrite
    simpa [AsyncOp.spares, hread] using hspares
  case write d n =>
    subst hh
    simpa [AsyncOp.spares] using hspares

end Spares

/-! ## What is destroyed together -/

/-- A service goes with its connections, and the timers of a service go with the service. -/
structure Destroyable (s : State) (p : Object → Bool) : Prop where
  conn : ∀ c < s.connCount, p (.client (s.conns c).service) → p (.conn c)
  timer : ∀ c < s.connCount, p (.timer (s.conns c).timer) → p (.client (s.conns c).service)
  connMade : ∀ c, p (.conn c) → c < s.connCount
  timerMade : ∀ t, p (.timer t) → t < s.timerCount

namespace Destroyable

variable {s : State}

theorem members (hreg : Registered s) (k : ClientRef) :
    Destroyable s (ClientService.members s k) where
  conn c hc hk := by simpa [ClientService.members, hc] using hk
  timer c hc hu := by
    have howner := (hreg.conn c hc).2
    simp only [ClientService.members, howner, Bool.and_eq_true, beq_iff_eq,
      TimerOwner.client.injEq] at hu
    simp only [ClientService.members, hu.2, beq_self_eq_true]
  connMade c hc := by
    simp only [ClientService.members, Bool.and_eq_true, decide_eq_true_eq] at hc
    exact hc.1
  timerMade u hu := by
    simp only [ClientService.members, Bool.and_eq_true, decide_eq_true_eq] at hu
    exact hu.1

theorem connectionMembers (hreg : Registered s) : Destroyable s s.connectionMembers where
  conn := (members hreg .connection).conn
  timer c hc hu := by
    have howner := (hreg.conn c hc).2
    rcases Bool.or_eq_true_iff.mp hu with hu | hu
    · rw [howner] at hu
      simp at hu
    · exact (members hreg .connection).timer c hc hu
  connMade := (members hreg .connection).connMade
  timerMade u hu := by
    rcases Bool.or_eq_true_iff.mp hu with hu | hu
    · simp only [Bool.and_eq_true, decide_eq_true_eq] at hu
      exact hu.1
    · exact (members hreg .connection).timerMade u hu

theorem localConnections (k : ClientRef) :
    Destroyable s (ClientService.localConnections s k) where
  conn := nofun
  timer := nofun
  connMade c hc := by
    simp only [ClientService.localConnections, Bool.and_eq_true, decide_eq_true_eq] at hc
    exact hc.1.1
  timerMade := nofun

/-- A timer made from `IO` is no timeout of a request. -/
theorem timer_io (hreg : Registered s) {u : TimerId} (hu : u < s.timerCount)
    (howner : (s.timers u).owner = .io) : Destroyable s fun o => o == .timer u where
  conn := by simp
  timer c hc htimer := by
    have htimer : (s.conns c).timer = u := by simpa using htimer
    rw [← htimer, (hreg.conn c hc).2] at howner
    cases howner
  connMade := by simp
  timerMade t ht := by
    have ht : t = u := by simpa using ht
    exact ht ▸ hu

end Destroyable

/-! ## What each function uses -/

theorem State.use_alive {s : State} {o : Object} (ho : s.dead o = false) :
    (s.use o).faults = s.faults := by
  rw [State.use_faults, ho]
  exact List.append_nil _

namespace Sound

variable {s t : State} {fs : List Frame}

/-- No object is made or destroyed, and nothing that is left uses a destroyed one. -/
theorem keeps (hs : Sound s)
    (hcounts : (t.dead, t.connCount, t.timerCount) = (s.dead, s.connCount, s.timerCount))
    (hconns : ∀ c, (t.conns c).service = (s.conns c).service ∧
      (t.conns c).timer = (s.conns c).timer)
    (hops : ∀ a ∈ t.ops, a.spares s s.dead) (hstack : ∀ f ∈ t.stack, f.spares s s.dead)
    (hprog : ∀ c ∈ t.inProgress, s.dead (.conn c) = false) (hfaults : t.faults = s.faults) :
    Sound t := by
  simp only [Prod.mk.injEq] at hcounts
  obtain ⟨hdead, hconnCount, htimerCount⟩ := hcounts
  have hservice : ∀ c, (t.conns c).service = (s.conns c).service := fun c => (hconns c).1
  constructor
  · intro a ha
    rw [hdead, AsyncOp.spares_congr fun c _ => hservice c]
    exact hops a ha
  · intro f hf
    rw [hdead, Frame.spares_congr fun c _ => hservice c]
    exact hstack f hf
  · rw [hdead]
    exact hprog
  · intro c hc
    rw [hdead, hservice]
    exact hs.service c (hconnCount ▸ hc)
  · intro c hc
    rw [hdead, hservice, (hconns c).2]
    exact hs.timer c (hconnCount ▸ hc)
  · rw [hdead, hconnCount]
    exact hs.connMade
  · rw [hdead, htimerCount]
    exact hs.timerMade
  · rw [hfaults]
    exact hs.faults

/-- New objects have not been destroyed. -/
theorem conn_fresh (hs : Sound s) : s.dead (.conn s.connCount) = false := by
  by_contra hdead
  exact Nat.lt_irrefl _ (hs.connMade _ (by simpa using hdead))

theorem timer_fresh (hs : Sound s) : s.dead (.timer s.timerCount) = false := by
  by_contra hdead
  exact Nat.lt_irrefl _ (hs.timerMade _ (by simpa using hdead))

/-- Nothing of what `Sound` is about changes. -/
theorem congr (hs : Sound s)
    (hcounts : (t.dead, t.connCount, t.timerCount) = (s.dead, s.connCount, s.timerCount))
    (hrefs : (t.conns, t.ops, t.stack, t.inProgress) = (s.conns, s.ops, s.stack, s.inProgress))
    (hfaults : t.faults = s.faults) : Sound t := by
  simp only [Prod.mk.injEq] at hrefs
  obtain ⟨hconns, hops, hstack, hprog⟩ := hrefs
  exact hs.keeps hcounts (fun c => by rw [hconns]; exact ⟨rfl, rfl⟩) (hops ▸ hs.ops)
    (hstack ▸ hs.stack) (hprog ▸ hs.inProgress) hfaults

theorem emit (hs : Sound s) (es : List Event) : Sound (s.emit es) := hs.congr rfl rfl rfl

theorem use (hs : Sound s) {o : Object} (ho : s.dead o = false) : Sound (s.use o) :=
  hs.congr rfl rfl (State.use_alive ho)

theorem queueStop (hs : Sound s) (maker q : Option RequestId) : Sound (s.queueStop maker q) :=
  hs.congr rfl rfl rfl

theorem withOps (hs : Sound s) {ops : List AsyncOp} (hops : ∀ a ∈ ops, a.spares s s.dead) :
    Sound { s with ops := ops } :=
  hs.keeps rfl (fun _ => ⟨rfl, rfl⟩) hops hs.stack hs.inProgress rfl

theorem abort (hs : Sound s) (p : Handler → Bool) : Sound (s.abort p) := by
  refine hs.withOps fun a ha => ?_
  obtain ⟨a', ha', rfl⟩ := List.mem_map.mp ha
  exact AsyncOp.spares_abort (hs.ops a' ha') p

theorem async (hs : Sound s) {h : Handler} {delay : Milliseconds}
    (hh : (AsyncOp.mk h .pending delay).spares s s.dead) : Sound (s.async h delay) := by
  refine hs.withOps fun a ha => ?_
  rcases List.mem_append.mp ha with ha | ha
  · exact hs.ops a ha
  · rw [List.mem_singleton.mp ha]
    exact hh

theorem withStack (hs : Sound s) (fs : List Frame) (hfs : ∀ f ∈ fs, f.spares s s.dead) :
    Sound { s with stack := fs } :=
  hs.keeps rfl (fun _ => ⟨rfl, rfl⟩) hs.ops hfs hs.inProgress rfl

theorem pops (hs : Sound s) (fs : List Frame) (hfs : fs ⊆ s.stack) : Sound { s with stack := fs } :=
  hs.withStack fs fun f hf => hs.stack f (hfs hf)

theorem push (hs : Sound s) (fs : List Frame) (hfs : ∀ f ∈ fs, f.spares s s.dead) :
    Sound (s.push fs) := by
  refine hs.withStack _ fun f hf => ?_
  rcases List.mem_append.mp hf with hf | hf
  · exact hfs f hf
  · exact hs.stack f hf

theorem push_one (hs : Sound s) {f : Frame} (hf : f.spares s s.dead) : Sound (s.push [f]) :=
  hs.push [f] fun _ hg => List.mem_singleton.mp hg ▸ hf

theorem queueLaunch (hs : Sound s) (maker q : Option RequestId) :
    Sound (s.queueLaunch maker q) := by
  have hpush : Sound (s.push ((s.server.lock q).toList.map .launch)) := by
    refine hs.push _ fun f hf => ?_
    obtain ⟨r, -, rfl⟩ := List.mem_map.mp hf
    rfl
  exact hpush.congr rfl rfl rfl

theorem delivers (hs : Sound s) {i : Nat} {h : Handler} {error : Option OpError}
    (hd : Delivers s i h error t) :
    Sound t ∧ (AsyncOp.mk h (.done error) 0).spares t t.dead := by
  obtain ⟨-, ⟨delay, hop⟩, rfl⟩ := hd
  have hspares := hs.ops _ (List.mem_of_getElem? hop)
  exact ⟨hs.withOps fun a ha => hs.ops a (List.mem_of_mem_eraseIdx ha), hspares⟩

/-- Code of a connection that exists. -/
theorem onSocket (hs : Sound s) {c : ConnId} (hc : s.dead (.conn c) = false)
    (h : OnSocket c s t) : Sound t := by
  refine hs.keeps (by rw [h.dead, h.connCount, h.timerCount]) (fun d => ⟨h.service d, h.timer d⟩)
    (fun a ha => ?_) (fun f hf => hs.stack f (h.stack ▸ hf))
    (fun d hd => hs.inProgress d (h.inProgress ▸ hd)) ?_
  · rcases h.mem_ops ha with ⟨a', ha', p, -, rfl⟩ | hnew
    · exact AsyncOp.spares_abort (hs.ops a' ha') p
    · unfold AsyncOp.spares
      cases hh : a.handler <;> rw [hh] at hnew <;>
        simp only [Handler.transfersOn, beq_iff_eq, Bool.false_eq_true] at hnew
      all_goals simp [hnew, hc]
  · rw [hs.faults, List.eq_nil_iff_forall_not_mem]
    intro o ho
    rcases h.faults o ho with ho | ⟨rfl, ho⟩
    · rw [hs.faults] at ho
      cases ho
    · rw [hc] at ho
      cases ho

/-! ### Timers -/

section Timer

variable {u : TimerId}

theorem cancelTimer (hs : Sound s) (hu : s.dead (.timer u) = false) :
    Sound ((TimerService.stopQueue s u).cancelTimer u) :=
  ((hs.use hu).queueStop _ _).abort _

theorem timerStart (hs : Sound s) (hu : s.dead (.timer u) = false) (time : Milliseconds)
    (task : Task) : Sound (TimerService.start s u time task) := by
  refine (hs.cancelTimer hu).async (h := .oneShot u task) ?_
  show (!s.dead (.timer u) || _) = true
  rw [hu]
  rfl

theorem startPeriodic (hs : Sound s) (hu : s.dead (.timer u) = false) (time : Milliseconds)
    (task : Task) : Sound (TimerService.startPeriodic s u time task) := by
  refine (hs.cancelTimer hu).async (h := .periodic u time task) ?_
  show (!s.dead (.timer u) || _) = true
  rw [hu]
  rfl

theorem timerStop (hs : Sound s) (hu : s.dead (.timer u) = false) :
    Sound (TimerService.stop s u) :=
  (((hs.use hu).abort _).emit _).queueLaunch _ _

end Timer

/-! ### Client requests -/

/-- The response handler of a request whose service exists is called. -/
theorem onResponseReceived (hs : Sound s) {c : ConnId} (hc : c < s.connCount)
    (hservice : s.dead (.client (s.conns c).service) = false) (response : Option ResponseData) :
    Sound (ClientService.onResponseReceived s c response) := by
  have hstop := hs.timerStop (hs.timer c hc hservice)
  have hpush := hstop.push [.user (.responseHandler c), .afterResponse c] (by
    simpa [Frame.spares] using hservice)
  refine hpush.congr rfl rfl ?_
  simp [hservice]

theorem afterResponse (hs : Sound s) {c : ConnId}
    (hservice : s.dead (.client (s.conns c).service) = false) :
    Sound (ClientService.afterResponse s c) :=
  ((hs.use hservice).emit _).queueLaunch _ _

/-- A new request is prepared by a service that exists. -/
theorem prepareRequest (hs : Sound s) (hreg : Registered s) {k : ClientRef}
    (hk : s.dead (.client k) = false) (maker : Option RequestId) (overload : Overload)
    (timeout : Milliseconds) :
    Sound (ClientService.prepareRequest s k maker overload timeout) := by
  have htimer := hs.timer_fresh
  have hold : ∀ c < s.connCount,
      (ClientService.prepareRequest s k maker overload timeout).conns c = s.conns c := by
    intro c hc
    rw [ClientService.prepareRequest_conns, Function.update_of_ne (Nat.ne_of_lt hc)]
  have hnew : (ClientService.prepareRequest s k maker overload timeout).conns s.connCount =
      { service := k, maker := maker, overload := overload, timer := s.timerCount } := by
    rw [ClientService.prepareRequest_conns, Function.update_self]
  have hcases : ∀ c < s.connCount + 1, c < s.connCount ∨ c = s.connCount := fun c hc =>
    Nat.lt_or_eq_of_le (Nat.le_of_lt_succ hc)
  constructor
  · intro a ha
    rw [ClientService.prepareRequest_ops, List.mem_append] at ha
    rcases ha with ha | ha
    · obtain ⟨a', ha', rfl⟩ := List.mem_map.mp ha
      have hspares := AsyncOp.spares_abort (hs.ops a' ha') (·.onTimer s.timerCount)
      refine (AsyncOp.spares_congr fun c hc => ?_).trans hspares
      rw [AsyncOp.abort_handler] at hc
      have hfits := hreg.ops a' ha'
      rw [hc] at hfits
      rw [hold c hfits]
    · rw [List.mem_singleton.mp ha]
      show (!s.dead (.timer s.timerCount) || _) = true
      rw [htimer]
      rfl
  · intro f hf
    refine (Frame.spares_congr fun c hc => ?_).trans (hs.stack f hf)
    have hfits := hreg.stack f hf
    rw [hc] at hfits
    rw [hold c hfits]
  · exact hs.inProgress
  · intro c hc halive
    rcases hcases c hc with hc | rfl
    · rw [hold c hc]
      exact hs.service c hc halive
    · rw [hnew]
      exact hk
  · intro c hc halive
    rcases hcases c hc with hc | rfl
    · rw [hold c hc] at halive ⊢
      exact hs.timer c hc halive
    · rw [hnew]
      exact htimer
  · exact fun c hc => Nat.lt_succ_of_lt (hs.connMade c hc)
  · exact fun u hu => Nat.lt_succ_of_lt (hs.timerMade u hu)
  · simp [hk, htimer, hs.faults]

/-! ### Destruction -/

/-- Objects are destroyed that no completion and no rest of a handler uses. -/
theorem destroy (hs : Sound s) {p : Object → Bool} (closeErrors : List String)
    (hp : Destroyable s p) (hops : ∀ a ∈ s.ops, (a.abort (·.isOn p)).spares s p)
    (hstack : ∀ f ∈ s.stack, f.spares s p) : Sound (s.destroy p closeErrors) := by
  constructor
  · intro a ha
    obtain ⟨a', ha', rfl⟩ := List.mem_map.mp ha
    exact AsyncOp.spares_or (AsyncOp.spares_abort (hs.ops a' ha') _) (hops a' ha')
  · exact fun f hf => Frame.spares_or (hs.stack f hf) (hstack f hf)
  · intro c hc
    obtain ⟨hc, hkept⟩ := List.mem_filter.mp hc
    show (s.dead (.conn c) || p (.conn c)) = false
    rw [hs.inProgress c hc]
    simpa using hkept
  · intro c hc halive
    obtain ⟨hdead, hkept⟩ := Bool.or_eq_false_iff.mp halive
    refine Bool.or_eq_false_iff.mpr ⟨hs.service c hc hdead, ?_⟩
    by_contra hclient
    have := hp.conn c hc (by simpa using hclient)
    rw [hkept] at this
    cases this
  · intro c hc halive
    obtain ⟨hdead, hkept⟩ := Bool.or_eq_false_iff.mp halive
    refine Bool.or_eq_false_iff.mpr ⟨hs.timer c hc hdead, ?_⟩
    by_contra htimer
    have := hp.timer c hc (by simpa using htimer)
    rw [State.destroy_conns] at hkept
    rw [hkept] at this
    cases this
  · intro c hc
    rcases Bool.or_eq_true_iff.mp hc with hc | hc
    · exact hs.connMade c hc
    · exact hp.connMade c hc
  · intro u hu
    rcases Bool.or_eq_true_iff.mp hu with hu | hu
    · exact hs.timerMade u hu
    · exact hp.timerMade u hu
  · exact hs.faults

/-! ### Posted tasks -/

theorem destroyContext (hs : Sound s) (p : PostId) : Sound (TaskContext.destroy s p) := by
  refine ((hs.emit _).push _ fun f hf => ?_).queueLaunch _ _
  obtain ⟨q, -, rfl⟩ := List.mem_map.mp hf
  rfl

theorem releaseHeld (hs : Sound s) (p : PostId) : Sound (TaskContext.releaseHeld s p) := by
  by_cases hlast : (s.contexts p).copies = 0
  · rw [TaskContext.releaseHeld_last hlast]
    refine destroyContext ?_ p
    exact hs.congr rfl rfl rfl
  · rw [TaskContext.releaseHeld_shared hlast]
    exact hs.congr rfl rfl rfl

theorem release (hs : Sound s) (p : PostId) : Sound (TaskContext.release s p) := by
  by_cases hlast : (s.contexts p).copies ≤ 1 ∧ (s.contexts p).held = false
  · rw [TaskContext.release_last hlast]
    refine destroyContext ?_ p
    exact hs.congr rfl rfl rfl
  · rw [TaskContext.release_shared hlast]
    exact hs.congr rfl rfl rfl

theorem unwind (what : Option String) (catcher : Option Nat) {fs : List Frame} (hs : Sound s)
    (hfs : ∀ f ∈ fs, f.spares s s.dead) : Sound (State.unwind what catcher fs s) := by
  have hnil : Sound { s with stack := [] } := hs.pops [] (List.nil_subset _)
  induction fs generalizing s with
  | nil => exact hnil.congr rfl rfl rfl
  | cons f fs ih =>
    obtain ⟨-, hrest⟩ := List.forall_mem_cons.mp hfs
    cases f
    case user code =>
      unfold State.unwind
      split
      · exact hs.withStack _ hfs
      · exact ih hs hrest hnil
    case tryBlock r => exact (hs.withStack _ hrest).congr rfl rfl rfl
    case postAction p => exact hnil.congr rfl rfl rfl
    case taskHandler p =>
      unfold State.unwind
      split
      · refine Sound.releaseHeld (hs.withStack (.rethrow what :: fs) ?_) p
        exact List.forall_mem_cons.mpr ⟨rfl, hrest⟩
      · have hrel := hs.releaseHeld p
        have hdead : (TaskContext.releaseHeld s p).dead = s.dead ∧
            (TaskContext.releaseHeld s p).conns = s.conns := by
          unfold TaskContext.releaseHeld
          split <;> exact ⟨rfl, rfl⟩
        refine ih hrel (fun g hg => ?_) (hrel.pops [] (List.nil_subset _))
        rw [hdead.1]
        exact (Frame.spares_congr fun c _ => by rw [hdead.2]).trans (hrest g hg)
    all_goals exact ih hs hrest hnil

/-! ### The steps of the runtime -/

theorem makeTimer (hs : Sound s) (maker : Option RequestId) : Sound (Timer.make s maker) := by
  have hemplace : ∀ timer, Sound (s.emplaceTimer timer) := fun timer =>
    ⟨hs.ops, hs.stack, hs.inProgress, hs.service, hs.timer, hs.connMade,
      fun u hu => Nat.lt_succ_of_lt (hs.timerMade u hu), hs.faults⟩
  cases maker with
  | none => exact hemplace _
  | some r =>
    by_cases hr : s.server.responseContext = some r
    · rw [Timer.make_current hr]
      exact hemplace _
    · rw [Timer.make_expired hr]
      exact hs

theorem command (hs : Sound s) (hreg : Registered s) {c : Command}
    (hguard : SparesCompletions s (.command c)) (hc : CommandStep s c t) : Sound t := by
  have htimer : ∀ {u}, s.userTimer u = true → s.dead (.timer u) = false ∧ u < s.timerCount := by
    intro u hu
    simp only [State.userTimer, Bool.and_eq_true, decide_eq_true_eq, Bool.not_eq_true'] at hu
    exact ⟨hu.1.2, hu.1.1⟩
  have hclient : ∀ {client : ClientHandle}, s.userClient client = true →
      s.dead (.client client.service) = false := by
    intro client hclient
    cases client <;> simp only [State.userClient, Bool.and_eq_true, decide_eq_true_eq,
      Bool.not_eq_true'] at hclient
    · exact hclient.2
    · exact hclient.2
  cases hc with
  | makeTimer => exact hs.makeTimer _
  | start ht => exact (hs.timerStart (htimer ht).1 _ _).emit _
  | startPeriodic ht | waitFuture ht => exact (hs.startPeriodic (htimer ht).1 _ _).emit _
  | stop ht => exact hs.timerStop (htimer ht).1
  | destroyTimer ht hio =>
    exact hs.destroy _ (Destroyable.timer_io hreg (htimer ht).2 hio) hguard.1 hguard.2
  | makeClient => exact hs.congr rfl rfl rfl
  | @makeRequest client overload timeout hc =>
    have hprepared := hs.prepareRequest hreg (hclient hc) client.maker overload timeout
    have hconn : s.dead (.conn s.connCount) = false := hs.conn_fresh
    have hopen := hprepared.onSocket hconn (ClientConnection.onSocket_opened _ s.connCount)
    refine (hopen.async (h := .connect s.connCount) ?_).emit _
    simp [AsyncOp.spares, hconn, hclient hc]
  | makeRequestThrows hc => exact hs.prepareRequest hreg (hclient hc) _ _ _
  | disconnect => exact hs.destroy _ (Destroyable.localConnections _) hguard.1 hguard.2
  | destroyClient => exact hs.destroy _ (Destroyable.members hreg _) hguard.1 hguard.2
  | @postTask maker =>
    have hstop := hs.queueStop maker (s.server.lock (maker.bind fun _ => s.dispatcherQueue))
    have hpost : Sound { s.queueStop maker (s.server.lock (maker.bind fun _ => s.dispatcherQueue))
        with ops := s.ops ++ [{ handler := .postedTask s.postCount, status := .done none }] } := by
      refine hstop.withOps fun a ha => ?_
      rcases List.mem_append.mp ha with ha | ha
      · exact hs.ops a ha
      · rw [List.mem_singleton.mp ha]
        rfl
    exact hpost.congr rfl rfl rfl
  | copyContext => exact hs.congr rfl rfl rfl
  | releaseContext => exact hs.release _
  | send => exact hs.congr rfl rfl rfl

theorem endRequest (hs : Sound s) (c : ConnId) : Sound (s.endRequest c) :=
  hs.keeps rfl (fun _ => ⟨rfl, rfl⟩) hs.ops hs.stack
    (fun d hd => hs.inProgress d (List.mem_of_mem_erase hd)) rfl

/-- A connection that exists begins its request. -/
theorem beginRequest (hs : Sound s) {c : ConnId} (hc : s.dead (.conn c) = false) :
    Sound (s.beginRequest c) := by
  refine hs.keeps rfl (fun d => ?_) hs.ops hs.stack (fun d hd => ?_) rfl
  · rw [State.beginRequest_conns]
    by_cases hd : d = c
    · subst hd
      rw [Function.update_self]
      exact ⟨rfl, rfl⟩
    · rw [Function.update_of_ne hd]
      exact ⟨rfl, rfl⟩
  · rcases List.mem_append.mp hd with hd | hd
    · exact hs.inProgress d hd
    · exact List.mem_singleton.mp hd ▸ hc

/-- A step that destroys only what completions spare leaves them sound. -/
theorem step (hs : Sound s) (hreg : Registered s) {l : Label} (hguard : SparesCompletions s l)
    (h : Step s l t) : Sound t := by
  cases h with
  | @processRequest processor =>
    cases processor with
    | router =>
      refine (hs.push [.launch _, .tryBlock _] ?_).congr rfl rfl rfl
      simp [Frame.spares]
    | function =>
      refine (hs.push [.user _, .tryBlock _] ?_).congr rfl rfl rfl
      simp [Frame.spares]
  | @destroyConnection closeErrors =>
    have hdestroy := hs.destroy closeErrors (.connectionMembers hreg) hguard.1 hguard.2
    exact hdestroy.congr rfl rfl rfl
  | outside => exact hs.push_one rfl
  | ignored hd => exact (hs.delivers hd).1
  | callback hd hk =>
    obtain ⟨hu, hspares⟩ := hs.delivers hd
    exact ((hu.emit _).push_one (hk.spares hspares).2).push_one rfl
  | timeout hd hk | futurePending hd hk =>
    obtain ⟨hu, hspares⟩ := hs.delivers hd
    exact (hu.emit _).push_one (hk.spares hspares).2
  | @timedOut _ _ _ _ c k u hd hk _ hc =>
    obtain ⟨hu, hspares⟩ := hs.delivers hd
    have hpush := (hu.emit [.timeout c]).push_one (hk.spares hspares).2
    have hlt := (hreg.delivers hd).1.inProgress c hc
    exact (hpush.endRequest c).onResponseReceived hlt (hu.service c hlt (hu.inProgress c hc)) _
  | @futureReady _ _ _ tm f _ u value hd hk =>
    obtain ⟨hu, hspares⟩ := hs.delivers hd
    obtain ⟨htimer, hframe⟩ := hk.spares hspares
    have hget : Sound ({ u.emit [.futureQueried f] with
        futures := Function.update u.futures f .consumed }.emit [.futureGot f value]) :=
      hu.congr rfl rfl rfl
    refine hget.push _ fun g hg => ?_
    simp only [List.mem_cons, List.not_mem_nil, or_false] at hg
    rcases hg with rfl | rfl | rfl
    · rfl
    · simpa [Frame.spares] using htimer
    · exact hframe
  | futureConsumed hd => exact (hs.delivers hd).1.emit _
  | @notConnected _ _ c _ u hd =>
    obtain ⟨hu, hspares⟩ := hs.delivers hd
    obtain ⟨-, hc⟩ := hreg.delivers hd
    refine hu.onResponseReceived hc ?_ _
    simpa [AsyncOp.spares, OpStatus.failed] using hspares
  | @connected _ _ c u v hd hv =>
    obtain ⟨hu, hspares⟩ := hs.delivers hd
    have halive : u.dead (.client (u.conns c).service) = false ∧ u.dead (.conn c) = false := by
      simpa [AsyncOp.spares, OpStatus.failed] using hspares
    exact (hu.onSocket halive.2 hv).beginRequest (hv.dead ▸ halive.2)
  | @refused _ _ c u v hd hv =>
    obtain ⟨hu, hspares⟩ := hs.delivers hd
    obtain ⟨-, hc⟩ := hreg.delivers hd
    have halive : u.dead (.client (u.conns c).service) = false ∧ u.dead (.conn c) = false := by
      simpa [AsyncOp.spares, OpStatus.failed] using hspares
    refine (hu.onSocket halive.2 hv).onResponseReceived
      (Nat.lt_of_lt_of_eq hc hv.connCount.symm) ?_ _
    rw [hv.dead, hv.service]
    exact halive.1
  | transferred hd hh herror hv =>
    obtain ⟨hu, hspares⟩ := hs.delivers hd
    exact hu.onSocket (AsyncOp.transfer_spares hspares hh herror) hv
  | @received _ _ c u v hd hv =>
    obtain ⟨hu, hspares⟩ := hs.delivers hd
    have halive : u.dead (.conn c) = false := by simpa [AsyncOp.spares] using hspares
    refine (hu.onSocket halive hv).push_one ?_
    simpa [Frame.spares, hv.dead] using halive
  | @answered _ _ c response u v hd hv hc =>
    obtain ⟨hu, hspares⟩ := hs.delivers hd
    have halive : u.dead (.conn c) = false := by simpa [AsyncOp.spares] using hspares
    have hsocket := hu.onSocket halive hv
    have hpush : Sound (v.push [.afterReceive c]) := by
      refine hsocket.push_one ?_
      simpa [Frame.spares, hv.dead] using halive
    have hlt : c < v.connCount := Nat.lt_of_lt_of_eq (hreg.delivers hd).2 hv.connCount.symm
    exact (hpush.endRequest c).onResponseReceived hlt
      (hsocket.service c hlt (hv.dead ▸ halive)) _
  | task hd =>
    refine (hs.delivers hd).1.push _ ?_
    simp [Frame.spares]
  | discard =>
    refine (hs.withOps fun a ha => ?_).releaseHeld _
    exact hs.ops a (List.mem_of_mem_eraseIdx ha)
  | release => exact hs.release _
  | finish hop =>
    refine hs.withOps fun a ha => ?_
    rcases List.mem_or_eq_of_mem_set ha with ha | rfl
    · exact hs.ops a ha
    · exact AsyncOp.spares_result (hs.ops _ (List.mem_of_getElem? hop)) _
  | futureMadeReady => exact hs.congr rfl rfl rfl
  | command _ hc => exact hs.command hreg hguard hc
  | @ret answer code fs hstack =>
    have hpop := hs.pops fs (hstack ▸ List.subset_cons_self _ fs)
    unfold State.returns
    split <;> exact hpop.congr rfl rfl rfl
  | @throw what catcher code fs hstack =>
    exact (hs.emit _).unwind what _ fun f hf => hs.stack f (hstack ▸ List.mem_cons_of_mem _ hf)
  | runProcessor => exact (hs.emit _).push_one rfl
  | @done _ f fs hstack => exact hs.pops fs (hstack ▸ List.subset_cons_self _ fs)
  | @oneShotDone _ tm fs hstack =>
    have hpop := hs.pops fs (hstack ▸ List.subset_cons_self _ fs)
    have hframe := hs.stack (.afterOneShot tm) (hstack ▸ List.mem_cons_self)
    exact (hpop.emit _).timerStop (by simpa [Frame.spares] using hframe)
  | @tickDone _ tm time task fs hstack =>
    have hpop := hs.pops fs (hstack ▸ List.subset_cons_self _ fs)
    have hframe := hs.stack (.afterPeriodic tm time task) (hstack ▸ List.mem_cons_self)
    exact hpop.startPeriodic (by simpa [Frame.spares] using hframe) _ _
  | @futureDone _ tm fs hstack =>
    have hpop := hs.pops fs (hstack ▸ List.subset_cons_self _ fs)
    have hframe := hs.stack (.afterFuture tm) (hstack ▸ List.mem_cons_self)
    exact hpop.timerStop (by simpa [Frame.spares] using hframe)
  | @responseDone _ c fs hstack =>
    have hpop := hs.pops fs (hstack ▸ List.subset_cons_self _ fs)
    have hframe := hs.stack (.afterResponse c) (hstack ▸ List.mem_cons_self)
    exact hpop.afterResponse (by simpa [Frame.spares] using hframe)
  | @receiveDone _ c fs v hstack hv =>
    have hpop := hs.pops fs (hstack ▸ List.subset_cons_self _ fs)
    have hframe := hs.stack (.afterReceive c) (hstack ▸ List.mem_cons_self)
    exact hpop.onSocket (by simpa [Frame.spares] using hframe) hv
  | @taskDone _ _ fs hstack =>
    exact (hs.pops fs (hstack ▸ List.subset_cons_self _ fs)).releaseHeld _
  | @rethrown _ what fs hstack =>
    have hrest := fun f hf => hs.stack f (hstack ▸ List.mem_cons_of_mem (Frame.rethrow what) hf)
    exact (hs.withStack _ hrest).unwind what none hrest

theorem init : Sound {} where
  ops _ ha := absurd ha List.not_mem_nil
  stack _ hf := absurd hf List.not_mem_nil
  inProgress _ hc := absurd hc List.not_mem_nil
  service _ hc := absurd hc (Nat.not_lt_zero _)
  timer _ hc := absurd hc (Nat.not_lt_zero _)
  connMade _ := nofun
  timerMade _ := nofun
  faults := rfl

end Sound

/-- **No completion reaches an object that is gone.** In a run that destroys clients, timers and
connections only where the completions and the rests of handlers that are left spare them, no
handler, and no code after a user's callback, uses a destroyed object. -/
theorem no_faults {l : List Label} {s : State}
    (hguard : runtime.EachStep (fun s a _ => SparesCompletions s a) runtime.init l)
    (hs : runtime.run runtime.init l = some s) : s.faults = [] := by
  have hinv := hguard.invariant (J := fun s => Registered s ∧ Sound s) ?_ hs
    ⟨Registered.init, Sound.init⟩
  · exact hinv.2.faults
  · rintro s a t ⟨hreg, hsound⟩ hspares hstep
    have hstep := Step.of_step hstep
    exact ⟨hreg.step hstep, hsound.step hreg hspares hstep⟩

/-- A client is destroyed after its request has been answered: its last read is aborted. -/
def destroyedClientRun : List Label :=
  [.outside, .command .makeClient, .command (.makeRequest (.io 0) .localFastcgi true 100),
    .ret none, .finish 1 none, .deliver 1 {}, .finish 1 none,
    .deliver 1 { response := some ⟨[], ""⟩ }, .ret none, .resume {}, .resume {}, .outside,
    .command (.destroyClient 0 []), .ret none, .deliver 0 {}, .deliver 0 {}]

theorem no_faults_destroyedClient : ∃ s, runtime.run runtime.init destroyedClientRun = some s ∧
    s.dead (.conn 0) = true ∧ s.faults = [] :=
  ⟨_, rfl, by decide, no_faults (l := destroyedClientRun) (by decide) rfl⟩

/-- The response handler of a request disconnects its client: the read that brought the response
goes on in the destroyed connection. -/
theorem disconnect_in_response : ∃ s, runtime.run runtime.init
      [.outside, .command .makeClient, .command (.makeRequest (.io 0) .localFastcgi true 100),
        .ret none, .finish 1 none, .deliver 1 {}, .finish 1 none,
        .deliver 1 { response := some ⟨[], ""⟩ }, .command (.disconnect (.io 0) []), .ret none,
        .resume {}, .resume {}] = some s ∧
    s.faults = [.conn 0, .conn 0] ∧ s.faults ≠ [] :=
  ⟨_, rfl, by decide, by decide⟩

end Asyncgi
