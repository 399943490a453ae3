import Asyncgi.Transition.Run
import Mathlib.Data.List.Perm.Basic
import Mathlib.Logic.Function.Basic

/-!
# Posted tasks and their queue

`AsioDispatcherService::postTask` stops the queue it was given last, and posts the task in a closure
with a `TaskContext`. The copies of the context share a `PostAction`, whose destructor launches the
queue that was set when the task was posted, if that still exists. Queues are set, made and
destroyed at any time; tasks are run or discarded in any order, and make copies of their contexts
that are destroyed in any order.

## Main definitions

* `AsioDispatcher`: the service, the closures it has posted and the contexts of their tasks
* `AsioDispatcher.machine`: its runs, and `AsioDispatcher.Step` their moves case by case
* `AsioDispatcher.Over`: the task has ended, and no copy of its context is left

## Main results

* `AsioDispatcher.launched_once`: a posted task launches its queue when it is over, and only then
-/

namespace Asyncgi

/-- A `RequestProcessorQueue`, in the order of construction. -/
abbrev QueueId := Nat

/-- A task that has been posted, in that order. -/
abbrev TaskId := Nat

/-- The `PostAction` that the copies of a `TaskContext` share. -/
structure SharedAction where
  /-- What `postTaskAction` has captured. -/
  queueObserver : Option QueueId := none
  /-- The `use_count()` of `postTaskAction_`. -/
  useCount : Nat := 0
  deriving DecidableEq, Repr

/-- A call on a queue. -/
inductive QueueCall
  | stop (q : QueueId)
  /-- in the destructor of the task's `PostAction` -/
  | launch (p : TaskId) (q : QueueId)
  deriving DecidableEq, Repr

/-- The queue, where the call launches it for the task. -/
def QueueCall.launchedBy (p : TaskId) : QueueCall → Option QueueId
  | stop _ => none
  | launch r q => if r = p then some q else none

/-- An `AsioDispatcherService`, with what it has posted. -/
structure AsioDispatcher where
  requestProcessorQueue : Option QueueId := none
  /-- The number of queues made. -/
  queues : Nat := 0
  /-- The queues that exist. -/
  alive : QueueId → Bool := fun _ => false
  /-- The number of tasks posted. -/
  tasks : Nat := 0
  actions : TaskId → SharedAction := fun _ => {}
  /-- The closures that wait to be run. -/
  posted : List TaskId := []
  /-- The closures that are being run. -/
  running : List TaskId := []
  /-- The copies that a task and its handlers have made of the context. -/
  copies : TaskId → Nat := fun _ => 0
  calls : List QueueCall := []

namespace AsioDispatcher

/-- `weak_ptr::lock`. -/
def lock (s : AsioDispatcher) (q : Option QueueId) : Option QueueId := q.filter s.alive

/-- `AsioDispatcherService::setRequestProcessorQueue`. -/
def setRequestProcessorQueue (s : AsioDispatcher) (queue : Option QueueId) : AsioDispatcher :=
  { s with requestProcessorQueue := queue }

/-- `AsioDispatcherService::postTask`. -/
def postTask (s : AsioDispatcher) : AsioDispatcher :=
  { s with
    tasks := s.tasks + 1
    -- the context that is made is moved into the closure
    actions := Function.update s.actions s.tasks
      { queueObserver := s.requestProcessorQueue, useCount := 1 }
    posted := s.posted ++ [s.tasks]
    calls := s.calls ++ (s.lock s.requestProcessorQueue).toList.map .stop }

/-- `TaskContext::PostAction::~PostAction`. -/
def destroyAction (s : AsioDispatcher) (p : TaskId) : AsioDispatcher :=
  { s with calls := s.calls ++ (s.lock (s.actions p).queueObserver).toList.map (.launch p) }

/-- The use count of the task's action. -/
def setUseCount (s : AsioDispatcher) (p : TaskId) (n : Nat) : AsioDispatcher :=
  { s with actions := Function.update s.actions p { s.actions p with useCount := n } }

/-- The destructor of a `TaskContext`; the last one destroys the action. -/
def release (s : AsioDispatcher) (p : TaskId) : AsioDispatcher :=
  let s' := s.setUseCount p ((s.actions p).useCount - 1)
  if (s'.actions p).useCount = 0 then s'.destroyAction p else s'

/-- What happens to a service and its tasks. Closures are named by their position. -/
inductive Label
  | makeQueue
  | destroyQueue (q : QueueId)
  | setRequestProcessorQueue (queue : Option QueueId)
  | postTask
  /-- A posted closure is run. -/
  | run (i : Nat)
  /-- The task returns or throws; the closure is destroyed. -/
  | finish (i : Nat)
  /-- A posted closure is destroyed without being run. -/
  | discard (i : Nat)
  /-- A copy of the context is made, from the task's or from another copy. -/
  | copy (p : TaskId)
  | destroyCopy (p : TaskId)
  deriving DecidableEq, Repr

/-- One move. -/
def step (s : AsioDispatcher) : Label → Option AsioDispatcher
  | .makeQueue =>
    some { s with queues := s.queues + 1, alive := Function.update s.alive s.queues true }
  | .destroyQueue q =>
    if s.alive q then some { s with alive := Function.update s.alive q false } else none
  | .setRequestProcessorQueue queue =>
    if queue.all s.alive then some (s.setRequestProcessorQueue queue) else none
  | .postTask => some s.postTask
  | .run i =>
    match s.posted[i]? with
    | some p => some { s with posted := s.posted.eraseIdx i, running := s.running ++ [p] }
    | none => none
  | .finish i =>
    match s.running[i]? with
    | some p => some (release { s with running := s.running.eraseIdx i } p)
    | none => none
  | .discard i =>
    match s.posted[i]? with
    | some p => some (release { s with posted := s.posted.eraseIdx i } p)
    | none => none
  | .copy p =>
    if p ∈ s.running ∨ 0 < s.copies p then
      some ({ s with copies := Function.update s.copies p (s.copies p + 1) }.setUseCount p
        ((s.actions p).useCount + 1))
    else none
  | .destroyCopy p =>
    if 0 < s.copies p then
      some (release { s with copies := Function.update s.copies p (s.copies p - 1) } p)
    else none

/-- A service that has been made, without a queue. -/
def machine : Machine AsioDispatcher Label where
  init := {}
  step := step

/-- The moves, case by case. -/
inductive Step (s : AsioDispatcher) : Label → AsioDispatcher → Prop
  | makeQueue : Step s .makeQueue
      { s with queues := s.queues + 1, alive := Function.update s.alive s.queues true }
  | destroyQueue {q} (hq : s.alive q) :
      Step s (.destroyQueue q) { s with alive := Function.update s.alive q false }
  | setRequestProcessorQueue {queue : Option QueueId} (hqueue : queue.all s.alive) :
      Step s (.setRequestProcessorQueue queue) (s.setRequestProcessorQueue queue)
  | postTask : Step s .postTask s.postTask
  | run {i p} (hp : s.posted[i]? = some p) :
      Step s (.run i) { s with posted := s.posted.eraseIdx i, running := s.running ++ [p] }
  | finish {i p} (hp : s.running[i]? = some p) :
      Step s (.finish i) (release { s with running := s.running.eraseIdx i } p)
  | discard {i p} (hp : s.posted[i]? = some p) :
      Step s (.discard i) (release { s with posted := s.posted.eraseIdx i } p)
  | copy {p} (hp : p ∈ s.running ∨ 0 < s.copies p) :
      Step s (.copy p) ({ s with copies := Function.update s.copies p (s.copies p + 1) }.setUseCount
        p ((s.actions p).useCount + 1))
  | destroyCopy {p} (hp : 0 < s.copies p) :
      Step s (.destroyCopy p)
        (release { s with copies := Function.update s.copies p (s.copies p - 1) } p)

theorem Step.of_step {s t : AsioDispatcher} {a : Label} (h : machine.step s a = some t) :
    Step s a t := by
  simp only [machine, step] at h
  cases a with
  | makeQueue =>
    obtain rfl := Option.some.inj h
    exact .makeQueue
  | destroyQueue q =>
    obtain ⟨hq, rfl⟩ := Option.ite_some_none_eq_some.mp h
    exact .destroyQueue hq
  | setRequestProcessorQueue queue =>
    obtain ⟨hqueue, rfl⟩ := Option.ite_some_none_eq_some.mp h
    exact .setRequestProcessorQueue hqueue
  | postTask =>
    obtain rfl := Option.some.inj h
    exact .postTask
  | run i =>
    dsimp only at h
    split at h
    next p hp =>
      obtain rfl := Option.some.inj h
      exact .run hp
    next => cases h
  | finish i =>
    dsimp only at h
    split at h
    next p hp =>
      obtain rfl := Option.some.inj h
      exact .finish hp
    next => cases h
  | discard i =>
    dsimp only at h
    split at h
    next p hp =>
      obtain rfl := Option.some.inj h
      exact .discard hp
    next => cases h
  | copy p =>
    obtain ⟨hp, rfl⟩ := Option.ite_some_none_eq_some.mp h
    exact .copy hp
  | destroyCopy p =>
    obtain ⟨hp, rfl⟩ := Option.ite_some_none_eq_some.mp h
    exact .destroyCopy hp

/-- The task has returned or was discarded, and the last copy of its context has been destroyed. -/
def Over (s : AsioDispatcher) (p : TaskId) : Prop :=
  p ∉ s.posted ∧ p ∉ s.running ∧ s.copies p = 0

instance (s : AsioDispatcher) (p : TaskId) : Decidable (s.Over p) :=
  inferInstanceAs (Decidable (_ ∧ _ ∧ _))

/-- The queues that the action of the task has launched. -/
def launches (s : AsioDispatcher) (p : TaskId) : List QueueId :=
  s.calls.filterMap (QueueCall.launchedBy p)

/-! ## The use count -/

/-- The closures and the copies that hold a context of the task. -/
def holders (s : AsioDispatcher) (p : TaskId) : Nat :=
  s.posted.count p + s.running.count p + s.copies p

variable {s t u : AsioDispatcher} {p r : TaskId}

theorem over_iff : s.Over p ↔ s.holders p = 0 := by
  unfold Over holders
  rw [← List.count_eq_zero, ← List.count_eq_zero]
  omega

theorem count_eraseIdx {l : List TaskId} {i : Nat} (h : l[i]? = some p) (r : TaskId) :
    l.count r = (l.eraseIdx i).count r + if r = p then 1 else 0 := by
  obtain ⟨hlt, rfl⟩ := List.getElem?_eq_some_iff.mp h
  have hperm := (List.getElem_cons_eraseIdx_perm hlt).count_eq r
  rw [List.count_cons] at hperm
  simp only [beq_iff_eq] at hperm
  rw [← hperm]
  simp only [eq_comm]

/-- Every holder is counted, and the action of a task is not destroyed before it is over. -/
structure Sound (s : AsioDispatcher) : Prop where
  useCount : ∀ p, (s.actions p).useCount = s.holders p
  unposted : ∀ p, s.tasks ≤ p → s.holders p = 0
  launches : ∀ p, p < s.tasks → s.holders p ≠ 0 → s.launches p = []
  fresh : ∀ p, s.tasks ≤ p → s.launches p = []

/-- What a move does with a task that has been posted. -/
structure Moves (p : TaskId) (s t : AsioDispatcher) : Prop where
  observer : (t.actions p).queueObserver = (s.actions p).queueObserver
  /-- No copy is made where there is none. -/
  ended : s.holders p = 0 → t.holders p = 0
  launches : t.launches p = s.launches p ++
    if s.holders p ≠ 0 ∧ t.holders p = 0 then (s.lock (s.actions p).queueObserver).toList else []

theorem Moves.refl_of (hactions : (t.actions p).queueObserver = (s.actions p).queueObserver)
    (hholders : s.holders p = 0 ↔ t.holders p = 0) (hlaunches : t.launches p = s.launches p) :
    Moves p s t := by
  refine ⟨hactions, hholders.mp, ?_⟩
  rw [if_neg fun h => h.1 (hholders.mpr h.2), hlaunches, List.append_nil]

/-! ### The destructor of a context -/

section Release

variable (s p r)

theorem setUseCount_actions (n : Nat) : (s.setUseCount p n).actions r =
    { s.actions r with useCount := if r = p then n else (s.actions r).useCount } := by
  unfold setUseCount
  by_cases hr : r = p
  · subst hr
    simp
  · simp [hr]

theorem release_holders : (s.release p).holders r = s.holders r := by
  unfold release
  dsimp only
  split <;> rfl

theorem release_tasks : (s.release p).tasks = s.tasks := by
  unfold release
  dsimp only
  split <;> rfl

theorem release_actions : (s.release p).actions r =
    { s.actions r with useCount := (s.actions r).useCount - if r = p then 1 else 0 } := by
  have hsame : (s.release p).actions = (s.setUseCount p ((s.actions p).useCount - 1)).actions := by
    unfold release
    dsimp only
    split <;> rfl
  rw [hsame, setUseCount_actions]
  by_cases hr : r = p
  · rw [if_pos hr, if_pos hr, hr]
  · rw [if_neg hr, if_neg hr, Nat.sub_zero]

theorem filterMap_launch (queue : Option QueueId) :
    (queue.toList.map (QueueCall.launch p)).filterMap (QueueCall.launchedBy r) =
      if r = p then queue.toList else [] := by
  by_cases hr : r = p
  · cases queue <;> simp [QueueCall.launchedBy, hr]
  · cases queue <;> simp [QueueCall.launchedBy, hr, Ne.symm hr]

/-- The last copy launches the queue. -/
theorem release_launches : (s.release p).launches r = s.launches r ++
    if r = p ∧ (s.actions p).useCount ≤ 1 then (s.lock (s.actions p).queueObserver).toList
    else [] := by
  unfold release
  dsimp only
  rw [setUseCount_actions, if_pos rfl]
  by_cases hlast : (s.actions p).useCount ≤ 1
  · have hzero : (s.actions p).useCount - 1 = 0 := by omega
    rw [if_pos hzero]
    have hlock : (s.setUseCount p ((s.actions p).useCount - 1)).lock
        ((s.setUseCount p ((s.actions p).useCount - 1)).actions p).queueObserver =
          s.lock (s.actions p).queueObserver := by
      rw [setUseCount_actions]
      rfl
    unfold launches destroyAction
    rw [List.filterMap_append, hlock, filterMap_launch]
    by_cases hr : r = p
    · rw [if_pos hr, if_pos ⟨hr, hlast⟩]
      rfl
    · rw [if_neg hr, if_neg fun h => hr h.1]
      rfl
  · have hnot : ¬ (s.actions p).useCount - 1 = 0 := by omega
    rw [if_neg hnot, if_neg fun h => hlast h.2, List.append_nil]
    rfl

end Release

/-- A holder of the task is gone, and its context is destroyed. -/
theorem Sound.drop (h : Sound s)
    (hholders : ∀ r, s.holders r = u.holders r + if r = p then 1 else 0)
    (hrest : (u.actions, u.tasks, u.calls, u.alive) = (s.actions, s.tasks, s.calls, s.alive)) :
    Sound (u.release p) ∧ ∀ r, Moves r s (u.release p) := by
  simp only [Prod.mk.injEq] at hrest
  obtain ⟨hactions, htasks, hcalls, halive⟩ := hrest
  have hlock : ∀ q, u.lock q = s.lock q := fun q => by rw [lock, lock, halive]
  have hlaunches : ∀ r, (u.release p).launches r = s.launches r ++
      if r = p ∧ s.holders p ≤ 1 then (s.lock (s.actions p).queueObserver).toList else [] := by
    intro r
    rw [release_launches, hlock, hactions, h.useCount, AsioDispatcher.launches,
      AsioDispatcher.launches, hcalls]
  have hpos : s.holders p = u.holders p + 1 := by simpa using hholders p
  have hmoves : ∀ r, Moves r s (u.release p) := by
    intro r
    refine ⟨?_, ?_, ?_⟩
    · rw [release_actions, hactions]
    · intro hzero
      have := hholders r
      rw [release_holders]
      omega
    · rw [hlaunches, release_holders]
      by_cases hr : r = p
      · subst hr
        by_cases hlast : s.holders r ≤ 1
        · rw [if_pos ⟨rfl, hlast⟩, if_pos (by omega)]
        · rw [if_neg (by omega), if_neg (by omega)]
      · have := hholders r
        rw [if_neg hr] at this
        rw [if_neg fun h => hr h.1, if_neg (by omega)]
  refine ⟨⟨?_, ?_, ?_, ?_⟩, hmoves⟩
  · intro r
    have := hholders r
    rw [release_actions, hactions, release_holders]
    simp only [h.useCount]
    omega
  · intro r hr
    rw [release_tasks, htasks] at hr
    exact (hmoves r).ended (h.unposted r hr)
  · intro r hr hne
    rw [release_tasks, htasks] at hr
    have hbefore : s.holders r ≠ 0 := fun hzero => hne ((hmoves r).ended hzero)
    rw [(hmoves r).launches, h.launches r hr hbefore, if_neg fun hend => hne hend.2]
    rfl
  · intro r hr
    rw [release_tasks, htasks] at hr
    rw [(hmoves r).launches, h.fresh r hr, if_neg fun hend => hend.1 (h.unposted r hr)]
    rfl

/-- No holder is made or destroyed. -/
theorem Sound.quiet (h : Sound s) (hholders : ∀ r, t.holders r = s.holders r)
    (hrest : (t.actions, t.tasks, t.calls) = (s.actions, s.tasks, s.calls)) :
    Sound t ∧ ∀ r, Moves r s t := by
  simp only [Prod.mk.injEq] at hrest
  obtain ⟨hactions, htasks, hcalls⟩ := hrest
  have hlaunches : ∀ r, t.launches r = s.launches r := fun r => by
    rw [AsioDispatcher.launches, hcalls, AsioDispatcher.launches]
  constructor
  · constructor
    · intro r
      rw [hactions, hholders, h.useCount]
    · intro r hr
      rw [hholders]
      exact h.unposted r (htasks ▸ hr)
    · intro r hr hne
      rw [hlaunches]
      exact h.launches r (htasks ▸ hr) (hholders r ▸ hne)
    · intro r hr
      rw [hlaunches]
      exact h.fresh r (htasks ▸ hr)
  · intro r
    exact .refl_of (by rw [hactions]) (by rw [hholders]) (hlaunches r)

/-- A copy of the context is made from one that there is. -/
theorem Sound.copy (h : Sound s) (hp : s.holders p ≠ 0) :
    Sound ({ s with copies := Function.update s.copies p (s.copies p + 1) }.setUseCount p
      ((s.actions p).useCount + 1)) ∧
    ∀ r, Moves r s ({ s with copies := Function.update s.copies p (s.copies p + 1) }.setUseCount p
      ((s.actions p).useCount + 1)) := by
  generalize ht : { s with copies := Function.update s.copies p (s.copies p + 1) }.setUseCount p
      ((s.actions p).useCount + 1) = t
  have hholders : ∀ r, t.holders r = s.holders r + if r = p then 1 else 0 := by
    intro r
    rw [← ht]
    by_cases hr : r = p
    · subst hr
      simp [holders, setUseCount, Nat.add_assoc]
    · simp [holders, setUseCount, hr]
  have hactions : ∀ r, t.actions r = { s.actions r with
      useCount := (s.actions r).useCount + if r = p then 1 else 0 } := by
    intro r
    rw [← ht, setUseCount_actions]
    by_cases hr : r = p
    · rw [if_pos hr, if_pos hr, hr]
    · rw [if_neg hr, if_neg hr]
      rfl
  have hlaunches : ∀ r, t.launches r = s.launches r := fun r => by rw [← ht]; rfl
  have htasks : t.tasks = s.tasks := by rw [← ht]; rfl
  have hzero : ∀ r, s.holders r = 0 ↔ t.holders r = 0 := by
    intro r
    rw [hholders]
    by_cases hr : r = p
    · subst hr
      omega
    · rw [if_neg hr, Nat.add_zero]
  refine ⟨⟨?_, ?_, ?_, ?_⟩, fun r => .refl_of (by rw [hactions]) (hzero r) (hlaunches r)⟩
  · intro r
    rw [hactions, hholders]
    simp only [h.useCount]
  · intro r hr
    exact (hzero r).mp (h.unposted r (htasks ▸ hr))
  · intro r hr hne
    rw [hlaunches]
    exact h.launches r (htasks ▸ hr) fun hr0 => hne ((hzero r).mp hr0)
  · intro r hr
    rw [hlaunches]
    exact h.fresh r (htasks ▸ hr)

theorem postTask_holders (r : TaskId) :
    s.postTask.holders r = s.holders r + if r = s.tasks then 1 else 0 := by
  simp only [holders, postTask, List.count_append, List.count_singleton, beq_iff_eq,
    eq_comm (a := s.tasks)]
  omega

theorem postTask_launches (r : TaskId) : s.postTask.launches r = s.launches r := by
  simp only [AsioDispatcher.launches, postTask, List.filterMap_append]
  cases s.lock s.requestProcessorQueue <;> simp [QueueCall.launchedBy]

/-- A task is posted; its closure is the first holder. -/
theorem Sound.postTask (h : Sound s) :
    Sound s.postTask ∧ ∀ r, r < s.tasks → Moves r s s.postTask := by
  have hzero := h.unposted s.tasks (Nat.le_refl _)
  constructor
  · constructor
    · intro r
      rw [postTask_holders]
      by_cases hr : r = s.tasks
      · subst hr
        rw [if_pos rfl, hzero]
        simp [AsioDispatcher.postTask]
      · rw [if_neg hr, Nat.add_zero, ← h.useCount]
        simp [AsioDispatcher.postTask, hr]
    · intro r hr
      have hr : s.tasks + 1 ≤ r := hr
      rw [postTask_holders, if_neg (Nat.ne_of_gt hr), h.unposted r (Nat.le_of_succ_le hr)]
    · intro r hr hne
      rw [postTask_launches]
      by_cases hlast : r = s.tasks
      · exact h.fresh r (Nat.le_of_eq hlast.symm)
      · have hr : r < s.tasks + 1 := hr
        rw [postTask_holders, if_neg hlast, Nat.add_zero] at hne
        exact h.launches r (by omega) hne
    · intro r hr
      have hr : s.tasks + 1 ≤ r := hr
      rw [postTask_launches, h.fresh r (by omega)]
  · intro r hr
    have hne : r ≠ s.tasks := Nat.ne_of_lt hr
    refine .refl_of ?_ ?_ (postTask_launches r)
    · simp [AsioDispatcher.postTask, hne]
    · rw [postTask_holders, if_neg hne, Nat.add_zero]

/-- **Every move keeps the count of the holders**, and launches the queue of the task that it
ends. -/
theorem Sound.step {a : Label} (h : Sound s) (ht : machine.step s a = some t) :
    Sound t ∧ ∀ r, r < s.tasks → Moves r s t := by
  have hweaken : (Sound t ∧ ∀ r, Moves r s t) → Sound t ∧ ∀ r, r < s.tasks → Moves r s t :=
    fun h => ⟨h.1, fun r _ => h.2 r⟩
  cases Step.of_step ht with
  | makeQueue | destroyQueue | setRequestProcessorQueue =>
    exact hweaken (h.quiet (fun _ => rfl) rfl)
  | postTask => exact h.postTask
  | @run i p hp =>
    refine hweaken (h.quiet (fun r => ?_) rfl)
    have hcount := count_eraseIdx hp r
    simp only [holders, List.count_append, List.count_singleton, beq_iff_eq, eq_comm (a := p)]
    omega
  | finish hp =>
    refine hweaken (h.drop (fun r => ?_) rfl)
    have hcount := count_eraseIdx hp r
    simp only [holders]
    omega
  | discard hp =>
    refine hweaken (h.drop (fun r => ?_) rfl)
    have hcount := count_eraseIdx hp r
    simp only [holders]
    omega
  | copy hp =>
    refine hweaken (h.copy ?_)
    unfold holders
    rcases hp with hp | hp
    · have := List.count_pos_iff.mpr hp
      omega
    · omega
  | @destroyCopy p hp =>
    refine hweaken (h.drop (fun r => ?_) rfl)
    by_cases hr : r = p
    · subst hr
      simp only [holders, Function.update_self, if_pos]
      omega
    · simp [holders, hr]

/-! ## The runs of a service -/

theorem sound_init : Sound {} where
  useCount _ := rfl
  unposted _ _ := rfl
  launches _ _ _ := rfl
  fresh _ _ := rfl

theorem sound_run {l : List Label} (h : Sound s) (hl : machine.run s l = some t) : Sound t :=
  Machine.run_invariant (fun _ _ _ hs ht => (hs.step ht).1) hl h

/-- Tasks are numbered as they are posted. -/
theorem tasks_step {a : Label} (ht : machine.step s a = some t) :
    t.tasks = s.tasks ∨ a = .postTask ∧ t = s.postTask := by
  cases Step.of_step ht with
  | postTask => exact Or.inr ⟨rfl, rfl⟩
  | finish | discard | destroyCopy => exact Or.inl (release_tasks _ _)
  | makeQueue | destroyQueue | setRequestProcessorQueue | run | copy => exact Or.inl rfl

/-- What a move keeps of a task that has been posted. -/
theorem Sound.keeps_step {a : Label} (h : Sound s) (hp : p < s.tasks)
    (ht : machine.step s a = some t) : p < t.tasks ∧
      (t.actions p).queueObserver = (s.actions p).queueObserver ∧
      (s.holders p = 0 → t.holders p = 0 ∧ t.launches p = s.launches p) := by
  have hmoves := (h.step ht).2 p hp
  refine ⟨?_, hmoves.observer, fun hzero => ⟨hmoves.ended hzero, ?_⟩⟩
  · rcases tasks_step ht with htasks | ⟨-, rfl⟩
    · rwa [htasks]
    · exact Nat.lt_succ_of_lt hp
  · rw [hmoves.launches, if_neg fun hend => hend.1 hzero, List.append_nil]

/-- What a run keeps of a task that has been posted. -/
theorem Sound.keeps {l : List Label} (h : Sound s) (hp : p < s.tasks)
    (hl : machine.run s l = some t) : p < t.tasks ∧
      (t.actions p).queueObserver = (s.actions p).queueObserver ∧
      (s.holders p = 0 → t.holders p = 0 ∧ t.launches p = s.launches p) := by
  induction l generalizing s with
  | nil =>
    obtain rfl := Option.some.inj hl
    exact ⟨hp, rfl, fun hzero => ⟨hzero, rfl⟩⟩
  | cons a l ih =>
    obtain ⟨u, hu, hl⟩ := (Machine.run_cons_eq_some _).mp hl
    obtain ⟨hpu, hobserver, hover⟩ := h.keeps_step hp hu
    obtain ⟨hpt, hobserver', hover'⟩ := ih (h.step hu).1 hpu hl
    refine ⟨hpt, hobserver'.trans hobserver, fun hzero => ?_⟩
    obtain ⟨hzero, hlaunches⟩ := hover hzero
    exact ⟨(hover' hzero).1, (hover' hzero).2.trans hlaunches⟩

/-- What a task that was posted with the queue set has launched, in the run of `l` from `x` to `s`
after that: nothing as long as it is not over; and in the step in which it gets over, the queue,
if that exists then, and nothing afterwards. -/
inductive LaunchedOnce (p : TaskId) (queue : Option QueueId) (x : AsioDispatcher) (l : List Label)
    (s : AsioDispatcher) : Prop
  | pending (hover : ¬ s.Over p) (hlaunches : s.launches p = [])
  | ended (k : List Label) (a : Label) (r : List Label) (u v : AsioDispatcher)
      (hl : l = k ++ a :: r) (hu : machine.run x k = some u) (hv : machine.step u a = some v)
      (hs : machine.run v r = some s) (hbefore : ¬ u.Over p) (hnone : u.launches p = [])
      (hafter : v.Over p) (hlaunch : v.launches p = (queue.filter u.alive).toList)
      (hover : s.Over p) (hlast : s.launches p = v.launches p)

/-- **A posted task launches its queue once**, in any run of a service: the queue is the one that
was set when the task was posted, and it is launched when the task has returned or was discarded
and the last copy of its context is destroyed, if it exists then. -/
theorem launched_once {l : List Label} {s : AsioDispatcher} (hl : machine.run {} l = some s)
    {p : TaskId} (hp : p < s.tasks) : ∃ k r x, l = k ++ .postTask :: r ∧
      machine.run {} k = some x ∧ x.tasks = p ∧ machine.run x.postTask r = some s ∧
        LaunchedOnce p x.requestProcessorQueue x.postTask r s := by
  obtain ⟨k, a, r, x, y, rfl, hk, hy, hr, hx, hpy⟩ :=
    Machine.exists_turn (P := fun s => p < s.tasks) hl (Nat.not_lt_zero p) hp
  have hxp : a = .postTask ∧ y = x.postTask := by
    rcases tasks_step hy with hsame | hposted
    · exact absurd (hsame ▸ hpy) hx
    · exact hposted
  obtain ⟨rfl, rfl⟩ := hxp
  have hxp : x.tasks = p := Nat.le_antisymm (Nat.not_lt.mp hx) (Nat.le_of_lt_succ hpy)
  refine ⟨k, r, x, rfl, hk, hxp, hr, ?_⟩
  have hsound : Sound x.postTask := (sound_run sound_init hk).postTask.1
  have hobserver : (x.postTask.actions p).queueObserver = x.requestProcessorQueue := by
    rw [← hxp]
    simp [postTask]
  by_cases hover : s.Over p
  · have hposted : ¬ x.postTask.Over p := by
      rw [over_iff, postTask_holders, if_pos hxp.symm]
      omega
    obtain ⟨k', a, r', u, v, rfl, hu, hv, hs, hbefore, hafter⟩ :=
      Machine.exists_turn (P := fun s => s.Over p) hr hposted hover
    have hsoundu := sound_run hsound hu
    obtain ⟨hpu, hobserveru, -⟩ := hsound.keeps hpy hu
    have hzero := over_iff.mp hafter
    have hne : u.holders p ≠ 0 := fun hzero => hbefore (over_iff.mpr hzero)
    have hnone := hsoundu.launches p hpu hne
    have hmoves := (hsoundu.step hv).2 p hpu
    have hlaunch : v.launches p = (x.requestProcessorQueue.filter u.alive).toList := by
      rw [hmoves.launches, hnone, if_pos ⟨hne, hzero⟩, hobserveru, hobserver, List.nil_append]
      rfl
    have hpv : p < v.tasks := (hsoundu.keeps_step hpu hv).1
    obtain ⟨-, -, hlast⟩ := (hsoundu.step hv).1.keeps hpv hs
    exact .ended k' a r' u v rfl hu hv hs hbefore hnone hafter hlaunch hover (hlast hzero).2
  · have hne : s.holders p ≠ 0 := fun hzero => hover (over_iff.mpr hzero)
    exact .pending hover ((sound_run hsound hr).launches p hp hne)

/-- A task posted with the queue `0` passes a copy of its context to a handler; another queue is
set meanwhile, and the handler is destroyed after the task has returned. -/
def handlerRun : List Label :=
  [.makeQueue, .setRequestProcessorQueue (some 0), .postTask, .run 0, .copy 0, .makeQueue,
    .setRequestProcessorQueue (some 1), .finish 0, .destroyCopy 0]

/-- The queue is destroyed while the handler still has its copy. -/
def destroyedRun : List Label :=
  [.makeQueue, .setRequestProcessorQueue (some 0), .postTask, .run 0, .copy 0, .finish 0,
    .destroyQueue 0, .destroyCopy 0]

theorem launched_once_handler :
    (∃ s, machine.run {} handlerRun = some s ∧ s.launches 0 = [0] ∧
      ∃ k r x, handlerRun = k ++ .postTask :: r ∧ machine.run {} k = some x ∧ x.tasks = 0 ∧
        machine.run x.postTask r = some s ∧
          LaunchedOnce 0 x.requestProcessorQueue x.postTask r s) ∧
    ∃ s, machine.run {} destroyedRun = some s ∧ s.Over 0 ∧ s.launches 0 = [] ∧
      ∃ k r x, destroyedRun = k ++ .postTask :: r ∧ machine.run {} k = some x ∧ x.tasks = 0 ∧
        machine.run x.postTask r = some s ∧
          LaunchedOnce 0 x.requestProcessorQueue x.postTask r s :=
  ⟨⟨_, rfl, by decide, launched_once (l := handlerRun) rfl (by decide)⟩,
    ⟨_, rfl, by decide, by decide, launched_once (l := destroyedRun) rfl (by decide)⟩⟩

end AsioDispatcher

end Asyncgi
