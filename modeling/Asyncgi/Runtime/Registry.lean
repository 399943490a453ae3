import Asyncgi.Runtime.Step

/-!
# The objects that handlers and frames refer to

Operations, frames and unfinished requests refer to timers, connections and posted tasks that
have been made. A client connection's timeout timer belongs to the connection's service and has
no queue.

## Main definitions

* `Handler.Fits`, `Frame.Fits`: a reference to objects that have been made
* `Extends s t`: the objects of `s` are those of `t`
* `Registered`

## Main results

* `Registered.step`: every step keeps `Registered`
* `registered_of_reachable`
-/

namespace Asyncgi

/-- The task can be the task of the timer `t`. -/
def Task.Fits (s : State) (t : TimerId) : Task → Prop
  | cancelRequest c => c < s.connCount ∧ (s.conns c).timer = t
  | _ => True

def Handler.Fits (s : State) : Handler → Prop
  | oneShot t task | periodic t _ task => t < s.timerCount ∧ task.Fits s t
  | connect c | read c | write c _ => c < s.connCount
  | postedTask p => p < s.postCount

def Frame.Fits (s : State) : Frame → Prop
  | afterOneShot t | afterFuture t => t < s.timerCount
  | afterPeriodic t _ task => t < s.timerCount ∧ task.Fits s t
  | afterResponse c | afterReceive c => c < s.connCount
  | taskHandler p => p < s.postCount
  | _ => True

/-- What has been made so far. -/
def State.objects (s : State) :
    (TimerId → TimerService) × TimerId × (ConnId → ClientConnection) × ConnId × PostId :=
  (s.timers, s.timerCount, s.conns, s.connCount, s.postCount)

/-- The objects of `s` are objects of `t`. -/
structure Extends (s t : State) : Prop where
  timerCount : s.timerCount ≤ t.timerCount
  timers : ∀ u < s.timerCount, t.timers u = s.timers u
  connCount : s.connCount ≤ t.connCount
  timer : ∀ c < s.connCount, (t.conns c).timer = (s.conns c).timer
  service : ∀ c < s.connCount, (t.conns c).service = (s.conns c).service
  postCount : s.postCount ≤ t.postCount

theorem Extends.of_eq {s t : State} (h : t.objects = s.objects) : Extends s t := by
  simp only [State.objects, Prod.mk.injEq] at h
  obtain ⟨htimers, htimerCount, hconns, hconnCount, hpostCount⟩ := h
  exact ⟨Nat.le_of_eq htimerCount.symm, fun _ _ => by rw [htimers], Nat.le_of_eq hconnCount.symm,
    fun _ _ => by rw [hconns], fun _ _ => by rw [hconns], Nat.le_of_eq hpostCount.symm⟩

section Fits

variable {s t : State}

theorem Task.Fits.mono (he : Extends s t) {u : TimerId} {task : Task} (h : task.Fits s u) :
    task.Fits t u := by
  cases task with
  | cancelRequest c => exact ⟨Nat.lt_of_lt_of_le h.1 he.connCount, (he.timer c h.1).trans h.2⟩
  | user _ => trivial
  | checkFuture _ => trivial

theorem Handler.Fits.mono (he : Extends s t) {h : Handler} (hh : h.Fits s) : h.Fits t := by
  cases h with
  | oneShot | periodic => exact ⟨Nat.lt_of_lt_of_le hh.1 he.timerCount, hh.2.mono he⟩
  | connect | read | write => exact Nat.lt_of_lt_of_le hh he.connCount
  | postedTask => exact Nat.lt_of_lt_of_le hh he.postCount

theorem Frame.Fits.mono (he : Extends s t) {f : Frame} (hf : f.Fits s) : f.Fits t := by
  cases f with
  | afterOneShot | afterFuture => exact Nat.lt_of_lt_of_le hf he.timerCount
  | afterPeriodic => exact ⟨Nat.lt_of_lt_of_le hf.1 he.timerCount, hf.2.mono he⟩
  | afterResponse | afterReceive => exact Nat.lt_of_lt_of_le hf he.connCount
  | taskHandler => exact Nat.lt_of_lt_of_le hf he.postCount
  | user | launch | tryBlock | postAction | rethrow => trivial

/-- The rest of a handler refers to what the handler refers to. -/
theorem WaitsFor.fits {u : TimerId} {task : Task} {h : Handler} {k : Frame}
    (hk : WaitsFor u task h k) (hh : h.Fits s) :
    k.Fits s ∧ u < s.timerCount ∧ task.Fits s u := by
  cases hk with
  | oneShot => exact ⟨hh.1, hh⟩
  | periodic => exact ⟨hh, hh⟩

end Fits

/-- Operations, frames and unfinished requests refer to objects that have been made. -/
structure Registered (s : State) : Prop where
  conn : ∀ c < s.connCount, (s.conns c).timer < s.timerCount ∧
    s.timers (s.conns c).timer = { owner := .client (s.conns c).service }
  ops : ∀ op ∈ s.ops, op.handler.Fits s
  stack : ∀ f ∈ s.stack, f.Fits s
  inProgress : ∀ c ∈ s.inProgress, c < s.connCount

namespace Registered

variable {s t : State}

theorem mono (hs : Registered s) (he : Extends s t)
    (hconn : ∀ c, s.connCount ≤ c → c < t.connCount → (t.conns c).timer < t.timerCount ∧
      t.timers (t.conns c).timer = { owner := .client (t.conns c).service })
    (hops : ∀ op ∈ t.ops, (∃ op' ∈ s.ops, op'.handler = op.handler) ∨ op.handler.Fits t)
    (hstack : ∀ f ∈ t.stack, f ∈ s.stack ∨ f.Fits t)
    (hprog : ∀ c ∈ t.inProgress, c ∈ s.inProgress ∨ c < t.connCount) : Registered t where
  conn c hc := by
    by_cases hold : c < s.connCount
    · obtain ⟨hlt, htimer⟩ := hs.conn c hold
      rw [he.timer c hold, he.service c hold, he.timers _ hlt]
      exact ⟨Nat.lt_of_lt_of_le hlt he.timerCount, htimer⟩
    · exact hconn c (Nat.le_of_not_lt hold) hc
  ops op hop := by
    rcases hops op hop with ⟨op', hop', heq⟩ | hfits
    · exact heq ▸ (hs.ops op' hop').mono he
    · exact hfits
  stack f hf := by
    rcases hstack f hf with hf | hfits
    · exact (hs.stack f hf).mono he
    · exact hfits
  inProgress c hc := by
    rcases hprog c hc with hc | hlt
    · exact Nat.lt_of_lt_of_le (hs.inProgress c hc) he.connCount
    · exact hlt

/-- No object is made. -/
theorem of_objects (hs : Registered s) (hobjects : t.objects = s.objects)
    (hops : ∀ op ∈ t.ops, (∃ op' ∈ s.ops, op'.handler = op.handler) ∨ op.handler.Fits s)
    (hstack : ∀ f ∈ t.stack, f ∈ s.stack ∨ f.Fits s)
    (hprog : ∀ c ∈ t.inProgress, c ∈ s.inProgress ∨ c < s.connCount) : Registered t := by
  have he := Extends.of_eq hobjects
  refine hs.mono he (fun c hle hlt => ?_) (fun op hop => ?_) (fun f hf => ?_) (fun c hc => ?_)
  · have hcount : t.connCount = s.connCount := by
      simp only [State.objects, Prod.mk.injEq] at hobjects
      exact hobjects.2.2.2.1
    exact absurd (hcount ▸ hlt) (Nat.not_lt.mpr hle)
  · exact (hops op hop).imp_right fun h => h.mono he
  · exact (hstack f hf).imp_right fun h => h.mono he
  · exact (hprog c hc).imp_right fun h => Nat.lt_of_lt_of_le h he.connCount

/-- Nothing of what `Registered` is about changes. -/
theorem congr (hs : Registered s) (hobjects : t.objects = s.objects)
    (hrefs : (t.ops, t.stack, t.inProgress) = (s.ops, s.stack, s.inProgress)) :
    Registered t := by
  simp only [Prod.mk.injEq] at hrefs
  obtain ⟨hops, hstack, hprog⟩ := hrefs
  exact hs.of_objects hobjects (fun op hop => Or.inl ⟨op, hops ▸ hop, rfl⟩)
    (fun f hf => Or.inl (hstack ▸ hf)) (fun c hc => Or.inl (hprog ▸ hc))

theorem use (hs : Registered s) (o : Object) : Registered (s.use o) := hs.congr rfl rfl

theorem emit (hs : Registered s) (es : List Event) : Registered (s.emit es) := hs.congr rfl rfl

theorem queueStop (hs : Registered s) (maker q : Option RequestId) :
    Registered (s.queueStop maker q) := hs.congr rfl rfl

/-- Only the operations change. -/
theorem withOps (hs : Registered s) {ops : List AsyncOp}
    (hops : ∀ op ∈ ops, (∃ op' ∈ s.ops, op'.handler = op.handler) ∨ op.handler.Fits s) :
    Registered { s with ops := ops } :=
  hs.of_objects rfl hops (fun _ hf => Or.inl hf) (fun _ hc => Or.inl hc)

theorem abort (hs : Registered s) (p : Handler → Bool) : Registered (s.abort p) := by
  refine hs.withOps fun op hop => ?_
  obtain ⟨op', hop', rfl⟩ := List.mem_map.mp hop
  exact Or.inl ⟨op', hop', (AsyncOp.abort_handler op').symm⟩

theorem async (hs : Registered s) {h : Handler} (hh : h.Fits s) (delay : Milliseconds) :
    Registered (s.async h delay) := by
  refine hs.withOps fun op hop => ?_
  rcases List.mem_append.mp hop with hop | hop
  · exact Or.inl ⟨op, hop, rfl⟩
  · rw [List.mem_singleton.mp hop]
    exact Or.inr hh

/-- Only the stack changes. -/
theorem withStack (hs : Registered s) {stack : List Frame}
    (hstack : ∀ f ∈ stack, f ∈ s.stack ∨ f.Fits s) : Registered { s with stack := stack } :=
  hs.of_objects rfl (fun op hop => Or.inl ⟨op, hop, rfl⟩) hstack (fun _ hc => Or.inl hc)

theorem push (hs : Registered s) (fs : List Frame) (hfs : ∀ f ∈ fs, f.Fits s) :
    Registered (s.push fs) := by
  refine hs.withStack fun f hf => ?_
  rcases List.mem_append.mp hf with hf | hf
  · exact Or.inr (hfs f hf)
  · exact Or.inl hf

theorem push_one (hs : Registered s) {f : Frame} (hf : f.Fits s) : Registered (s.push [f]) :=
  hs.push [f] (List.forall_mem_singleton.mpr hf)

theorem pops (hs : Registered s) {fs : List Frame} (hfs : fs ⊆ s.stack) :
    Registered { s with stack := fs } :=
  hs.withStack fun _ hf => Or.inl (hfs hf)

theorem pop (hs : Registered s) {f : Frame} {fs : List Frame} (hstack : s.stack = f :: fs) :
    Registered { s with stack := fs } :=
  hs.pops (hstack ▸ List.subset_cons_self f fs)

theorem queueLaunch (hs : Registered s) (maker q : Option RequestId) :
    Registered (s.queueLaunch maker q) := by
  have hpush : Registered (s.push ((s.server.lock q).toList.map .launch)) := by
    refine hs.push _ fun f hf => ?_
    obtain ⟨r, -, rfl⟩ := List.mem_map.mp hf
    trivial
  exact hpush.congr rfl rfl

theorem delivers (hs : Registered s) {i : Nat} {h : Handler} {error : Option OpError}
    (hd : Delivers s i h error t) : Registered t ∧ h.Fits t := by
  obtain ⟨-, ⟨delay, hop⟩, rfl⟩ := hd
  have hmem := List.mem_of_getElem? hop
  refine ⟨hs.withOps fun op hop' => Or.inl ⟨op, List.mem_of_mem_eraseIdx hop', rfl⟩, ?_⟩
  exact (hs.ops _ hmem).mono (.of_eq rfl)

theorem onSocket (hs : Registered s) {c : ConnId} (hc : c < s.connCount) (h : OnSocket c s t) :
    Registered t := by
  refine hs.mono ⟨Nat.le_of_eq h.timerCount.symm, fun _ _ => by rw [h.timers],
    Nat.le_of_eq h.connCount.symm, fun d _ => h.timer d, fun d _ => h.service d,
    Nat.le_of_eq h.postCount.symm⟩ ?_ ?_ ?_ ?_
  · exact fun d hle hlt => absurd (h.connCount ▸ hlt) (Nat.not_lt.mpr hle)
  · intro op hop
    rcases h.mem_ops hop with ⟨op', hop', p, -, rfl⟩ | hnew
    · exact Or.inl ⟨op', hop', (AsyncOp.abort_handler op').symm⟩
    · right
      rw [← h.connCount] at hc
      generalize op.handler = k at hnew ⊢
      cases k <;> simp only [Handler.transfersOn, beq_iff_eq, Bool.false_eq_true] at hnew
      case read d => exact hnew ▸ hc
      case write d n => exact hnew ▸ hc
  · exact fun f hf => Or.inl (h.stack ▸ hf)
  · exact fun d hd => Or.inl (h.inProgress ▸ hd)

/-! ### The functions of the runtime -/

theorem timerStart (hs : Registered s) {u : TimerId} (task : Task) (hu : u < s.timerCount)
    (htask : task.Fits s u) (time : Milliseconds) :
    Registered (TimerService.start s u time task) := by
  have habort : Registered ((TimerService.stopQueue s u).cancelTimer u) :=
    ((hs.use _).queueStop _ _).abort _
  exact habort.async (h := .oneShot u task) ⟨hu, htask.mono (.of_eq rfl)⟩ time

theorem startPeriodic (hs : Registered s) {u : TimerId} (task : Task) (hu : u < s.timerCount)
    (htask : task.Fits s u) (time : Milliseconds) :
    Registered (TimerService.startPeriodic s u time task) := by
  have habort : Registered ((TimerService.stopQueue s u).cancelTimer u) :=
    ((hs.use _).queueStop _ _).abort _
  exact habort.async (h := .periodic u time task) ⟨hu, htask.mono (.of_eq rfl)⟩ time

theorem timerStop (hs : Registered s) (u : TimerId) : Registered (TimerService.stop s u) := by
  have habort : Registered ((s.use (.timer u)).cancelTimer u) := (hs.use _).abort _
  exact (habort.emit _).queueLaunch _ _

theorem emplaceTimer (hs : Registered s) (timer : TimerService) :
    Registered (s.emplaceTimer timer) := by
  refine hs.mono ⟨Nat.le_succ _, fun u hu => ?_, Nat.le_refl _, fun _ _ => rfl, fun _ _ => rfl,
    Nat.le_refl _⟩ ?_ (fun op hop => Or.inl ⟨op, hop, rfl⟩) (fun _ hf => Or.inl hf)
    (fun _ hc => Or.inl hc)
  · exact Function.update_of_ne (Nat.ne_of_lt hu) _ _
  · exact fun c hle hlt => absurd hlt (Nat.not_lt.mpr hle)

theorem timerMake (hs : Registered s) (maker : Option RequestId) :
    Registered (Timer.make s maker) := by
  cases maker with
  | none => exact hs.emplaceTimer _
  | some r =>
    by_cases hr : s.server.responseContext = some r
    · rw [Timer.make_current hr]
      exact hs.emplaceTimer _
    · rw [Timer.make_expired hr]
      exact hs

theorem destroy (hs : Registered s) (p : Object → Bool) (closeErrors : List String) :
    Registered (s.destroy p closeErrors) :=
  (hs.abort (·.isOn p)).of_objects rfl (fun op hop => Or.inl ⟨op, hop, rfl⟩)
    (fun _ hf => Or.inl hf) (fun _ hc => Or.inl (List.mem_of_mem_filter hc))

theorem prepareRequest (hs : Registered s) (k : ClientRef) (maker : Option RequestId)
    (overload : Overload) (timeout : Milliseconds) :
    Registered (ClientService.prepareRequest s k maker overload timeout) := by
  have hother : ∀ {α : Type} (f : Nat → α) (x : α) {n i : Nat}, i < n →
      Function.update f n x i = f i := fun f x _ _ h => Function.update_of_ne (Nat.ne_of_lt h) x f
  refine hs.mono ⟨Nat.le_succ _, fun u hu => hother _ _ hu, Nat.le_succ _, fun c hc => ?_,
    fun c hc => ?_, Nat.le_refl _⟩ ?_ ?_ (fun _ hf => Or.inl hf) (fun _ hc => Or.inl hc)
  · rw [ClientService.prepareRequest_conns, hother _ _ hc]
  · rw [ClientService.prepareRequest_conns, hother _ _ hc]
  · intro c hle hlt
    obtain rfl : c = s.connCount := Nat.le_antisymm (Nat.le_of_lt_succ hlt) hle
    simp
  · intro op hop
    rw [ClientService.prepareRequest_ops, List.mem_append, List.mem_map] at hop
    rcases hop with ⟨op', hop', rfl⟩ | hop
    · exact Or.inl ⟨op', hop', (AsyncOp.abort_handler op').symm⟩
    · right
      rw [List.mem_singleton.mp hop]
      simp [Handler.Fits, Task.Fits]

theorem makeRequest (hs : Registered s) (k : ClientRef) (maker : Option RequestId)
    (overload : Overload) (hasEndpoint : Bool) (timeout : Milliseconds) :
    Registered (ClientService.makeRequest s k maker overload hasEndpoint timeout) := by
  have hp := hs.prepareRequest k maker overload timeout
  cases hasEndpoint with
  | false => exact hp
  | true =>
    have hc : s.connCount < (ClientService.prepareRequest s k maker overload timeout).connCount :=
      Nat.lt_succ_self _
    have hopen := hp.onSocket hc (ClientConnection.onSocket_opened _ s.connCount)
    exact hopen.async (h := .connect s.connCount) (Nat.lt_succ_self _) 0

theorem beginRequest (hs : Registered s) {c : ConnId} (hc : c < s.connCount) :
    Registered (s.beginRequest c) := by
  have hset : ∀ d, ((s.beginRequest c).conns d).timer = (s.conns d).timer ∧
      ((s.beginRequest c).conns d).service = (s.conns d).service := by
    intro d
    rw [State.beginRequest_conns]
    by_cases hd : d = c
    · simp [hd]
    · simp [Function.update_of_ne hd]
  refine hs.mono ⟨Nat.le_refl _, fun _ _ => rfl, Nat.le_refl _, fun d _ => (hset d).1,
    fun d _ => (hset d).2, Nat.le_refl _⟩ ?_ (fun op hop => Or.inl ⟨op, hop, rfl⟩)
    (fun _ hf => Or.inl hf) ?_
  · exact fun d hle hlt => absurd hlt (Nat.not_lt.mpr hle)
  · intro d hd
    rw [State.beginRequest_inProgress, List.mem_append] at hd
    rcases hd with hd | hd
    · exact Or.inl hd
    · exact Or.inr (List.mem_singleton.mp hd ▸ hc)

theorem endRequest (hs : Registered s) (c : ConnId) : Registered (s.endRequest c) :=
  hs.of_objects rfl (fun op hop => Or.inl ⟨op, hop, rfl⟩) (fun _ hf => Or.inl hf)
    (fun _ hd => Or.inl (List.mem_of_mem_erase hd))

theorem onResponseReceived (hs : Registered s) {c : ConnId} (hc : c < s.connCount)
    (response : Option ResponseData) :
    Registered (ClientService.onResponseReceived s c response) := by
  have hstop := hs.timerStop (s.conns c).timer
  refine (hstop.push [.user (.responseHandler c), .afterResponse c] ?_).congr rfl rfl
  simpa [Frame.Fits] using hc

theorem afterResponse (hs : Registered s) (c : ConnId) :
    Registered (ClientService.afterResponse s c) :=
  ((hs.use _).emit _).queueLaunch _ _

theorem postTask (hs : Registered s) (maker : Option RequestId) :
    Registered (AsioDispatcherService.postTask s maker) := by
  refine hs.mono ⟨Nat.le_refl _, fun _ _ => rfl, Nat.le_refl _, fun _ _ => rfl, fun _ _ => rfl,
    Nat.le_succ _⟩ ?_ ?_ (fun _ hf => Or.inl hf)
    (fun _ hc => Or.inl hc)
  · exact fun c hle hlt => absurd hlt (Nat.not_lt.mpr hle)
  · intro op hop
    rw [AsioDispatcherService.postTask_ops, List.mem_append] at hop
    rcases hop with hop | hop
    · exact Or.inl ⟨op, hop, rfl⟩
    · rw [List.mem_singleton.mp hop]
      exact Or.inr (Nat.lt_succ_self _)

theorem destroyContext (hs : Registered s) (p : PostId) :
    Registered (TaskContext.destroy s p) := by
  refine ((hs.emit [.contextDestroyed p]).push _ fun f hf => ?_).queueLaunch _ _
  obtain ⟨q, -, rfl⟩ := List.mem_map.mp hf
  trivial

theorem setContext (hs : Registered s) (p : PostId) (context : PostAction) :
    Registered (TaskContext.setContext s p context) := hs.congr rfl rfl

theorem releaseHeld (hs : Registered s) (p : PostId) :
    Registered (TaskContext.releaseHeld s p) := by
  by_cases hlast : (s.contexts p).copies = 0
  · rw [TaskContext.releaseHeld_last hlast]
    exact (hs.setContext p _).destroyContext p
  · rw [TaskContext.releaseHeld_shared hlast]
    exact hs.setContext p _

theorem release (hs : Registered s) (p : PostId) : Registered (TaskContext.release s p) := by
  by_cases hlast : (s.contexts p).copies ≤ 1 ∧ (s.contexts p).held = false
  · rw [TaskContext.release_last hlast]
    exact (hs.setContext p _).destroyContext p
  · rw [TaskContext.release_shared hlast]
    exact hs.setContext p _

theorem unwind (what : Option String) (catcher : Option Nat) {fs : List Frame}
    (hs : Registered s) (hfs : fs ⊆ s.stack) : Registered (State.unwind what catcher fs s) := by
  have hnil : Registered { s with stack := [] } := hs.pops (List.nil_subset _)
  induction fs generalizing s with
  | nil => exact hnil.congr rfl rfl
  | cons f fs ih =>
    have hsub : fs ⊆ s.stack := fun g hg => hfs (List.mem_cons_of_mem f hg)
    cases f
    case user code =>
      unfold State.unwind
      split
      · exact hs.pops hfs
      · exact ih hs hsub hnil
    case tryBlock r => exact (hs.pops hsub).congr rfl rfl
    case postAction p => exact hnil.congr rfl rfl
    case taskHandler p =>
      unfold State.unwind
      split
      · refine Registered.releaseHeld (hs.withStack fun g hg => ?_) p
        rcases List.mem_cons.mp hg with rfl | hg
        · exact Or.inr trivial
        · exact Or.inl (hsub hg)
      next hno =>
        -- no launch: the stack that is left is as it was
        have hrel := hs.releaseHeld p
        have hstack := TaskContext.releaseHeld_stack hno
        exact ih hrel (hstack ▸ hsub) (hrel.pops (List.nil_subset _))
    all_goals exact ih hs hsub hnil

theorem command (hs : Registered s) {c : Command} (h : CommandStep s c t) : Registered t := by
  have hlt : ∀ {u : TimerId}, s.userTimer u → u < s.timerCount := by
    intro u hu
    simp only [State.userTimer, Bool.and_eq_true, decide_eq_true_eq] at hu
    exact hu.1.1
  cases h with
  | makeTimer => exact hs.timerMake _
  | start ht => exact (hs.timerStart (.user _) (hlt ht) trivial _).congr rfl rfl
  | startPeriodic ht => exact (hs.startPeriodic (.user _) (hlt ht) trivial _).congr rfl rfl
  | stop => exact hs.timerStop _
  | waitFuture ht => exact (hs.startPeriodic (.checkFuture _) (hlt ht) trivial _).congr rfl rfl
  | destroyTimer | disconnect | destroyClient => exact hs.destroy _ _
  | makeClient => exact hs.congr rfl rfl
  | makeRequest => exact (hs.makeRequest _ _ _ _ _).congr rfl rfl
  | makeRequestThrows => exact hs.makeRequest _ _ _ _ _
  | postTask => exact (hs.postTask _).congr rfl rfl
  | copyContext => exact hs.congr rfl rfl
  | releaseContext => exact hs.release _
  | send => exact hs.congr rfl rfl

theorem step (hs : Registered s) {l : Label} (h : Step s l t) : Registered t := by
  cases h with
  | @processRequest processor =>
    cases processor with
    | router => exact (hs.push [.launch _, .tryBlock _] (by simp [Frame.Fits])).congr rfl rfl
    | function => exact (hs.push [.user _, .tryBlock _] (by simp [Frame.Fits])).congr rfl rfl
  | @destroyConnection closeErrors =>
    exact (hs.destroy s.connectionMembers closeErrors).congr rfl rfl
  | outside => exact hs.push _ (by simp [Frame.Fits])
  | ignored hd => exact (hs.delivers hd).1
  | callback hd hk =>
    obtain ⟨hu, hfits⟩ := hs.delivers hd
    exact ((hu.emit _).push_one ((hk.fits hfits).1.mono (.of_eq rfl))).push_one trivial
  | timeout hd hk =>
    obtain ⟨hu, hfits⟩ := hs.delivers hd
    exact (hu.emit _).push_one ((hk.fits hfits).1.mono (.of_eq rfl))
  | @timedOut _ _ _ _ c _ u hd hk _ hc =>
    obtain ⟨hu, hfits⟩ := hs.delivers hd
    have hpush := (hu.emit [.timeout c]).push_one ((hk.fits hfits).1.mono (.of_eq rfl))
    exact (hpush.endRequest _).onResponseReceived (hu.inProgress _ hc) _
  | futurePending hd hk =>
    obtain ⟨hu, hfits⟩ := hs.delivers hd
    exact (hu.emit _).push_one ((hk.fits hfits).1.mono (.of_eq rfl))
  | @futureReady _ _ _ _ f _ u _ hd hk =>
    obtain ⟨hu, hfits⟩ := hs.delivers hd
    obtain ⟨hk, hlt, -⟩ := hk.fits hfits
    have hget : Registered { u.emit [.futureQueried f] with
        futures := Function.update u.futures f .consumed } := hu.congr rfl rfl
    refine (hget.emit _).push _ fun g hg => ?_
    simp only [List.mem_cons, List.not_mem_nil, or_false] at hg
    rcases hg with rfl | rfl | rfl
    · trivial
    · exact hlt
    · exact hk.mono (.of_eq rfl)
  | futureConsumed hd => exact (hs.delivers hd).1.emit _
  | notConnected hd =>
    obtain ⟨hu, hc⟩ := hs.delivers hd
    exact hu.onResponseReceived hc _
  | connected hd hv =>
    obtain ⟨hu, hc⟩ := hs.delivers hd
    exact (hu.onSocket hc hv).beginRequest (hv.connCount ▸ hc)
  | refused hd hv =>
    obtain ⟨hu, hc⟩ := hs.delivers hd
    exact (hu.onSocket hc hv).onResponseReceived (hv.connCount ▸ hc) _
  | @transferred _ _ h _ _ _ _ hd hh _ hv =>
    obtain ⟨hu, hfits⟩ := hs.delivers hd
    refine hu.onSocket ?_ hv
    cases h <;> simp only [Handler.transfersOn, beq_iff_eq, Bool.false_eq_true] at hh
    case read => exact hh ▸ hfits
    case write => exact hh ▸ hfits
  | received hd hv =>
    obtain ⟨hu, hc⟩ := hs.delivers hd
    exact (hu.onSocket hc hv).push_one (Nat.lt_of_lt_of_eq hc hv.connCount.symm)
  | @answered _ _ c _ _ _ hd hv hin =>
    obtain ⟨hu, hc⟩ := hs.delivers hd
    have hpush := (hu.onSocket hc hv).push_one (f := .afterReceive c)
      (Nat.lt_of_lt_of_eq hc hv.connCount.symm)
    exact (hpush.endRequest _).onResponseReceived (hv.connCount ▸ hc) _
  | task hd =>
    obtain ⟨hu, hp⟩ := hs.delivers hd
    exact (hu.push_one (f := .taskHandler _) hp).push_one trivial
  | discard =>
    refine (hs.withOps fun op hop => ?_).releaseHeld _
    exact Or.inl ⟨op, List.mem_of_mem_eraseIdx hop, rfl⟩
  | release => exact hs.release _
  | finish hop =>
    refine hs.withOps fun op hmem => ?_
    rcases List.mem_or_eq_of_mem_set hmem with hmem | rfl
    · exact Or.inl ⟨op, hmem, rfl⟩
    · exact Or.inl ⟨_, List.mem_of_getElem? hop, rfl⟩
  | futureMadeReady => exact hs.congr rfl rfl
  | command _ hc => exact hs.command hc
  | @ret answer code fs hstack =>
    have hpop := hs.pop hstack
    unfold State.returns
    split <;> exact hpop.congr rfl rfl
  | @throw what catcher code fs hstack =>
    exact (hs.emit _).unwind what catcher (hstack ▸ List.subset_cons_self _ fs)
  | runProcessor => exact (hs.emit _).push _ (by simp [Frame.Fits])
  | done hstack => exact hs.pop hstack
  | oneShotDone hstack =>
    have hpop := hs.pop hstack
    exact (hpop.emit _).timerStop _
  | @tickDone moves u time task fs hstack =>
    obtain ⟨hlt, htask⟩ := hs.stack _ (hstack ▸ List.mem_cons_self)
    exact (hs.pop hstack).startPeriodic task hlt (htask.mono (.of_eq rfl)) _
  | futureDone hstack => exact (hs.pop hstack).timerStop _
  | responseDone hstack => exact (hs.pop hstack).afterResponse _
  | @receiveDone _ c _ _ hstack hv =>
    have hc : c < s.connCount := hs.stack (.afterReceive c) (hstack ▸ List.mem_cons_self)
    exact (hs.pop hstack).onSocket hc hv
  | taskDone hstack => exact (hs.pop hstack).releaseHeld _
  | rethrown hstack =>
    exact (hs.pop hstack).unwind _ none (List.Subset.refl _)

theorem init : Registered {} where
  conn c hc := absurd hc (Nat.not_lt_zero c)
  ops _ hop := absurd hop List.not_mem_nil
  stack _ hf := absurd hf List.not_mem_nil
  inProgress _ hc := absurd hc List.not_mem_nil

end Registered

/-! ## The number of requests made -/

section Count

variable (s : State) (p : PostId)

theorem TaskContext.releaseHeld_connCount : (releaseHeld s p).connCount = s.connCount := by
  by_cases hlast : (s.contexts p).copies = 0
  · rw [releaseHeld_last hlast]
    rfl
  · rw [releaseHeld_shared hlast]
    rfl

theorem TaskContext.release_connCount : (release s p).connCount = s.connCount := by
  by_cases hlast : (s.contexts p).copies ≤ 1 ∧ (s.contexts p).held = false
  · rw [release_last hlast]
    rfl
  · rw [release_shared hlast]
    rfl

theorem State.unwind_connCount (what : Option String) (catcher : Option Nat) (fs : List Frame) :
    (unwind what catcher fs s).connCount = s.connCount :=
  unwind_invariant (I := fun t => t.connCount = s.connCount) (fun _ _ h => h)
    (fun t p h => (TaskContext.releaseHeld_connCount t p).trans h) (fun _ h => h) (fun _ h => h)
    (fun _ h => h) catcher fs rfl

/-- Requests are only ever added. -/
theorem Step.connCount_le {s t : State} {l : Label} (h : Step s l t) :
    s.connCount ≤ t.connCount := by
  have hu : ∀ {i : Nat} {h : Handler} {error : Option OpError} {u : State},
      Delivers s i h error u → u.connCount = s.connCount := by
    intro i h error u hd
    rw [hd.rest]
  have hv : ∀ {i : Nat} {h : Handler} {error : Option OpError} {d : ConnId} {u v : State},
      Delivers s i h error u → OnSocket d u v → v.connCount = s.connCount := by
    intro i h error d u v hd hv
    exact hv.connCount.trans (hu hd)
  cases h with
  | @processRequest processor => cases processor <;> exact Nat.le_refl _
  | command _ hc =>
    cases hc with
    | @makeTimer maker =>
      cases maker with
      | none => exact Nat.le_refl _
      | some r =>
        by_cases hr : s.server.responseContext = some r
        · rw [Timer.make_current hr]
          exact Nat.le_refl _
        · exact Nat.le_of_eq (by rw [Timer.make_expired hr])
    | makeRequest | makeRequestThrows => exact Nat.le_succ _
    | releaseContext => exact Nat.le_of_eq (by rw [TaskContext.release_connCount])
    | _ => exact Nat.le_refl _
  | discard => exact Nat.le_of_eq (by rw [TaskContext.releaseHeld_connCount])
  | release => exact Nat.le_of_eq (by rw [TaskContext.release_connCount])
  | @ret answer code fs =>
    unfold State.returns
    split <;> exact Nat.le_refl _
  | throw => exact Nat.le_of_eq (State.unwind_connCount (s.emit _) _ _ _).symm
  | taskDone => exact Nat.le_of_eq (by rw [TaskContext.releaseHeld_connCount])
  | rethrown => exact Nat.le_of_eq (by rw [State.unwind_connCount])
  | receiveDone _ hv => exact Nat.le_of_eq hv.connCount.symm
  | ignored hd | callback hd | timeout hd | futurePending hd | futureReady hd
  | futureConsumed hd | task hd => exact Nat.le_of_eq (hu hd).symm
  | timedOut hd | notConnected hd =>
    rw [ClientService.onResponseReceived_connCount]
    exact Nat.le_of_eq (hu hd).symm
  | connected hd hv' | transferred hd _ _ hv' | received hd hv' =>
    exact Nat.le_of_eq (hv hd hv').symm
  | refused hd hv' | answered hd hv' =>
    rw [ClientService.onResponseReceived_connCount]
    exact Nat.le_of_eq (hv hd hv').symm
  | _ => exact Nat.le_refl _

end Count

theorem registered_of_reachable {s : State} (h : runtime.Reachable s) : Registered s :=
  h.invariant Registered.init fun _ _ _ hs hstep => hs.step (Step.of_step hstep)

end Asyncgi
