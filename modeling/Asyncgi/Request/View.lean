import Asyncgi.Transition.Run
import Mathlib.Logic.Function.Basic

/-!
# The lazily built view of a request

A `Request` refers to an `fcgi::Request`, and builds the `http::RequestView` of it at the first call
of an http accessor, with a closure that has captured the `this` of the constructor. A copy takes
over the closure with the other members, so the view of a copy is built from the request that the
original refers to by then.

What is taken from outside of the repository: the functions of `fcgi::Request`, the constructor of
`http::RequestView`, and that a `sfun::member` of a reference is copied as the reference. What the
standard leaves unspecified of a moved-from member is kept unspecified.

## Main definitions

* `RequestObject`, `LazyInitialized`: the objects and their members
* `Requests.httpRequest`: the view that the http accessors ask
* `Requests.machine`: `Request` objects under construction, copies, moves, assignments, calls and
  destruction
* `Requests.ReadsOwn`: an accessor answers from the object's own request
* `Requests.Ready`: the view has been built, or the closure is the object's own

## Main results

* `Requests.reads_own_iff`: the accessors of a run answer from their own requests where the objects
  are ready
-/

namespace Asyncgi

/-- The functions of an `fcgi::Request`. -/
structure FcgiRequest where
  hasParam : String → Bool
  param : String → String
  stdIn : String

/-- What an `http::RequestView` is constructed from. -/
structure RequestViewArgs where
  requestMethod : String
  remoteAddr : String
  httpHost : String
  requestUri : String
  queryString : String
  httpCookie : String
  contentType : String
  stdIn : String
  deriving DecidableEq, Repr

/-- The parameter, or an empty view. -/
def FcgiRequest.paramOrEmpty (r : FcgiRequest) (name : String) : String :=
  if r.hasParam name then r.param name else ""

/-- What the closure that `Request::Request` passes to `httpRequest_` reads of the request. -/
def FcgiRequest.viewArgs (r : FcgiRequest) : RequestViewArgs where
  requestMethod := r.paramOrEmpty "REQUEST_METHOD"
  remoteAddr := r.paramOrEmpty "REMOTE_ADDR"
  httpHost := r.paramOrEmpty "HTTP_HOST"
  requestUri := r.paramOrEmpty "REQUEST_URI"
  queryString := r.paramOrEmpty "QUERY_STRING"
  httpCookie := r.paramOrEmpty "HTTP_COOKIE"
  contentType := r.paramOrEmpty "CONTENT_TYPE"
  stdIn := r.stdIn

/-- `LazyInitialized<http::RequestView>`, where `initializer` is the `this` that the closure has
captured. -/
structure LazyInitialized (Address View : Type*) where
  value : Option View
  initializer : Address
  deriving DecidableEq, Repr

/-- A `Request`. -/
structure RequestObject (Address Ref View : Type*) where
  /-- The `fcgi::Request` that is referred to. -/
  fcgiRequest : Ref
  /-- `none` after a move: then the member is in a valid but unspecified state. -/
  httpRequest : Option (LazyInitialized Address View)
  deriving DecidableEq, Repr

/-- The objects that are alive. -/
abbrev Requests (Address Ref View : Type*) := Address → Option (RequestObject Address Ref View)

/-- What a call of an http accessor gives. -/
inductive ViewResult (α : Type*)
  | value (a : α)
  /-- The function or the view of a moved-from member is used. -/
  | unspecified
  /-- An object that has been destroyed is read. -/
  | undefined
  deriving DecidableEq, Repr

def ViewResult.map {α β : Type*} (f : α → β) : ViewResult α → ViewResult β
  | value a => value (f a)
  | unspecified => unspecified
  | undefined => undefined

namespace Requests

variable {Address Ref View Accessor Result : Type*} (fcgi : Ref → FcgiRequest)
  (requestView : RequestViewArgs → View)

/-- `Request::Request(const fcgi::Request&)` at the address `this`. -/
def construct (this : Address) (ref : Ref) : RequestObject Address Ref View :=
  { fcgiRequest := ref, httpRequest := some { value := none, initializer := this } }

/-- What is left of an object whose members have been moved. -/
def movedFrom (o : RequestObject Address Ref View) : RequestObject Address Ref View :=
  { o with httpRequest := none }

/-- `Request::fcgiRequest`. -/
def fcgiRequest (s : Requests Address Ref View) (this : Address) : Option Ref :=
  (s this).map RequestObject.fcgiRequest

/-- What may be done with the objects. -/
inductive Label (Address Ref Accessor : Type*)
  | construct (this : Address) (ref : Ref)
  | copyConstruct (this other : Address)
  | moveConstruct (this other : Address)
  | copyAssign (this other : Address)
  | moveAssign (this other : Address)
  /-- A call of one of the http accessors, with its arguments. -/
  | call (this : Address) (accessor : Accessor)
  | destroy (this : Address)
  deriving DecidableEq, Repr

section Operations

variable [DecidableEq Address]

/-- `Request::httpRequest`, and the `Request` objects that are read. -/
def httpRequest (s : Requests Address Ref View) (this : Address) :
    Requests Address Ref View × ViewResult View × List Address :=
  match s this with
  | none => (s, .undefined, [this])
  | some o =>
    match o.httpRequest with
    | none => (s, .unspecified, [this])
    | some ⟨some view, _⟩ => (s, .value view, [this])
    | some ⟨none, initializer⟩ =>
      -- `initializer_()` asks `fcgiRequest()` of the object it has captured
      match fcgiRequest s initializer with
      | none => (s, .undefined, [this, initializer])
      | some ref =>
        let view := requestView (fcgi ref).viewArgs
        (Function.update s this (some { o with httpRequest := some ⟨some view, initializer⟩ }),
          .value view, [this, initializer])

/-- One operation. An object is made where there is none, and only live objects are used. -/
def step (s : Requests Address Ref View) :
    Label Address Ref Accessor → Option (Requests Address Ref View)
  | .construct this ref =>
    match s this with
    | none => some (Function.update s this (some (construct this ref)))
    | some _ => none
  | .copyConstruct this other =>
    match s this, s other with
    | none, some o => some (Function.update s this (some o))
    | _, _ => none
  | .moveConstruct this other =>
    match s this, s other with
    | none, some o =>
      some (Function.update (Function.update s this (some o)) other (some (movedFrom o)))
    | _, _ => none
  | .copyAssign this other =>
    match s this, s other with
    | some _, some o => some (Function.update s this (some o))
    | _, _ => none
  | .moveAssign this other =>
    match s this, s other with
    | some _, some o =>
      some (Function.update (Function.update s this (some o)) other (some (movedFrom o)))
    | _, _ => none
  | .call this _ =>
    match s this with
    | some _ => some (httpRequest fcgi requestView s this).1
    | none => none
  | .destroy this =>
    match s this with
    | some _ => some (Function.update s this none)
    | none => none

/-- The objects of a program that starts without one. -/
def machine : Machine (Requests Address Ref View) (Label Address Ref Accessor) where
  init := fun _ => none
  step := step fcgi requestView

variable (ask : Accessor → View → Result)

/-- Where the operation is the call of an accessor, it answers as a view of the request that
`fcgiParam` and `fcgiStdIn` of the object read, and no other object is read. -/
def ReadsOwn (s : Requests Address Ref View) : Label Address Ref Accessor → Prop
  | .call this accessor =>
    ∃ ref, fcgiRequest s this = some ref ∧
      (httpRequest fcgi requestView s this).2.1.map (ask accessor) =
        .value (ask accessor (requestView (fcgi ref).viewArgs)) ∧
      ∀ c ∈ (httpRequest fcgi requestView s this).2.2, c = this
  | _ => True

end Operations

/-- Where the operation is the call of an accessor, the object has not been moved from, and its
view has been built or its closure has captured the object itself. -/
def Ready (s : Requests Address Ref View) : Label Address Ref Accessor → Prop
  | .call this _ => ∃ o member, s this = some o ∧ o.httpRequest = some member ∧
      (member.value ≠ none ∨ member.initializer = this)
  | _ => True

/-! ## The views that have been built -/

/-- The view of the object, where it has been built, is the one of the request it refers to. -/
def Faithful (o : RequestObject Address Ref View) : Prop :=
  ∀ member view, o.httpRequest = some member → member.value = some view →
    view = requestView (fcgi o.fcgiRequest).viewArgs

/-- All the objects are faithful. -/
def Sound (s : Requests Address Ref View) : Prop :=
  ∀ this o, s this = some o → Faithful fcgi requestView o

variable {fcgi requestView} {ask : Accessor → View → Result} {s t : Requests Address Ref View}
  {this : Address}
  {o : RequestObject Address Ref View}

theorem faithful_construct (ref : Ref) :
    Faithful fcgi requestView (construct this ref : RequestObject Address Ref View) := by
  rintro member view hmember hview
  obtain rfl := Option.some.inj hmember
  cases hview

theorem faithful_movedFrom : Faithful fcgi requestView (movedFrom o) := by
  rintro member view hmember
  cases hmember

theorem faithful_view {ref : Ref} {initializer : Address} (href : o.fcgiRequest = ref) :
    Faithful fcgi requestView
      { o with httpRequest := some ⟨some (requestView (fcgi ref).viewArgs), initializer⟩ } := by
  rintro member view hmember hview
  obtain rfl := Option.some.inj hmember
  obtain rfl := Option.some.inj hview
  rw [href]

theorem sound_init : Sound fcgi requestView (fun _ : Address => none) := nofun

section Operations

variable [DecidableEq Address]

theorem Sound.destroy (h : Sound fcgi requestView s) (this : Address) :
    Sound fcgi requestView (Function.update s this none) := by
  intro other o ho
  by_cases hother : other = this
  · rw [hother, Function.update_self] at ho
    cases ho
  · rw [Function.update_of_ne hother] at ho
    exact h other o ho

theorem Sound.set (h : Sound fcgi requestView s) (ho : Faithful fcgi requestView o)
    (this : Address) : Sound fcgi requestView (Function.update s this (some o)) := by
  intro other o' ho'
  by_cases hother : other = this
  · rw [hother, Function.update_self] at ho'
    exact Option.some.inj ho' ▸ ho
  · rw [Function.update_of_ne hother] at ho'
    exact h other o' ho'

/-- The members of `other` are taken over; those that are left behind are of no value. -/
theorem Sound.move {other : Address} (h : Sound fcgi requestView s) (ho : s other = some o)
    (this : Address) : Sound fcgi requestView
      (Function.update (Function.update s this (some o)) other (some (movedFrom o))) :=
  (h.set (h other o ho) this).set faithful_movedFrom other

/-- The view has been built. -/
theorem httpRequest_built {view : View} {initializer : Address} (ho : s this = some o)
    (hmember : o.httpRequest = some ⟨some view, initializer⟩) :
    httpRequest fcgi requestView s this = (s, .value view, [this]) := by
  simp only [httpRequest, ho, hmember]

/-- The closure has captured the object itself. -/
theorem httpRequest_own (ho : s this = some o) (hmember : o.httpRequest = some ⟨none, this⟩) :
    httpRequest fcgi requestView s this =
      (Function.update s this (some { o with
        httpRequest := some ⟨some (requestView (fcgi o.fcgiRequest).viewArgs), this⟩ }),
        .value (requestView (fcgi o.fcgiRequest).viewArgs), [this, this]) := by
  simp only [httpRequest, ho, hmember, fcgiRequest, Option.map_some]

/-- The object that the closure has captured is read. -/
theorem httpRequest_reads {initializer : Address} (ho : s this = some o)
    (hmember : o.httpRequest = some ⟨none, initializer⟩) :
    initializer ∈ (httpRequest fcgi requestView s this).2.2 := by
  simp only [httpRequest, ho, hmember]
  cases fcgiRequest s initializer <;> simp

/-- An object with its own closure builds the view of its own request. -/
theorem Sound.access {accessor : Accessor} (h : Sound fcgi requestView s)
    (hready : Ready s (.call this accessor : Label Address Ref Accessor)) :
    Sound fcgi requestView (httpRequest fcgi requestView s this).1 := by
  obtain ⟨o, ⟨_ | view, initializer⟩, ho, hmember, hready⟩ := hready
  · obtain rfl : initializer = this := hready.resolve_left fun hnone => hnone rfl
    rw [httpRequest_own ho hmember]
    exact h.set (faithful_view rfl) initializer
  · rw [httpRequest_built ho hmember]
    exact h

/-- **Every operation keeps the views faithful**, where accessors are called on ready objects. -/
theorem Sound.step {a : Label Address Ref Accessor} (h : Sound fcgi requestView s)
    (hready : Ready s a) (ht : (machine fcgi requestView).step s a = some t) :
    Sound fcgi requestView t := by
  simp only [machine, Requests.step] at ht
  cases a with
  | construct this ref =>
    dsimp only at ht
    split at ht
    · exact Option.some.inj ht ▸ h.set (faithful_construct ref) this
    · cases ht
  | copyConstruct this other =>
    dsimp only at ht
    split at ht
    next ho => exact Option.some.inj ht ▸ h.set (h other _ ho) this
    next => cases ht
  | moveConstruct this other =>
    dsimp only at ht
    split at ht
    next ho => exact Option.some.inj ht ▸ h.move ho this
    next => cases ht
  | copyAssign this other =>
    dsimp only at ht
    split at ht
    next ho => exact Option.some.inj ht ▸ h.set (h other _ ho) this
    next => cases ht
  | moveAssign this other =>
    dsimp only at ht
    split at ht
    next ho => exact Option.some.inj ht ▸ h.move ho this
    next => cases ht
  | call this accessor =>
    dsimp only at ht
    split at ht
    · exact Option.some.inj ht ▸ h.access hready
    · cases ht
  | destroy this =>
    dsimp only at ht
    split at ht
    · exact Option.some.inj ht ▸ h.destroy this
    · cases ht

/-- An accessor answers from the object's own request where the object is ready, and only there. -/
theorem Sound.readsOwn_iff (h : Sound fcgi requestView s) (ho : s this = some o)
    (accessor : Accessor) : ReadsOwn fcgi requestView ask s (.call this accessor) ↔
      Ready s (.call this accessor : Label Address Ref Accessor) := by
  have href : fcgiRequest s this = some o.fcgiRequest := by rw [fcgiRequest, ho, Option.map_some]
  have hready : Ready s (.call this accessor : Label Address Ref Accessor) ↔
      ∃ member, o.httpRequest = some member ∧
        (member.value ≠ none ∨ member.initializer = this) := by
    simp [Ready, ho]
  rw [hready]
  rcases hmember : o.httpRequest with _ | ⟨_ | view, initializer⟩
  · refine iff_of_false ?_ (by simp)
    rintro ⟨ref, -, hanswer, -⟩
    simp [httpRequest, ho, hmember, ViewResult.map] at hanswer
  · by_cases hself : initializer = this
    · subst hself
      refine iff_of_true ⟨o.fcgiRequest, href, ?_, ?_⟩ ⟨_, rfl, Or.inr rfl⟩
      · rw [httpRequest_own ho hmember]
        rfl
      · rw [httpRequest_own ho hmember]
        simp
    · refine iff_of_false ?_ (by simpa using hself)
      rintro ⟨ref, -, -, hread⟩
      exact hself (hread initializer (httpRequest_reads ho hmember))
  · refine iff_of_true ⟨o.fcgiRequest, href, ?_, ?_⟩ ⟨_, rfl, Or.inl (by simp)⟩
    · rw [httpRequest_built ho hmember, ← h this o ho _ view hmember rfl]
      rfl
    · rw [httpRequest_built ho hmember]
      simp

/-- **The accessors answer from their own requests where the objects are ready.** In a run of any
length, every call of an http accessor answers as a view of the object's own request would, and
reads no other object, exactly when every call is on an object that has not been moved from, and
whose view has been built or whose closure has captured the object itself. -/
theorem reads_own_iff (l : List (Label Address Ref Accessor)) :
    (machine fcgi requestView).EachStep (fun s a _ => ReadsOwn fcgi requestView ask s a)
        (fun _ => none) l ↔
      (machine fcgi requestView).EachStep (fun s a _ => Ready s a) (fun _ => none) l := by
  refine Machine.eachStep_iff (J := Sound fcgi requestView) ?_ ?_ sound_init l
  · intro s a t h ht
    cases a with
    | call this accessor =>
      simp only [machine, Requests.step] at ht
      split at ht
      next ho => exact h.readsOwn_iff ho accessor
      next => cases ht
    | _ => exact Iff.rfl
  · exact fun s a t h hready ht => h.step hready ht

/-- Two requests for different pages. -/
def pages (ref : Bool) : FcgiRequest where
  hasParam name := name = "REQUEST_URI"
  param _ := if ref then "/" else "/login"
  stdIn := ""

/-- A copy is made, and the original is assigned another request. -/
def reassigned : List (Label Nat Bool Unit) :=
  [.construct 0 true, .copyConstruct 1 0, .construct 2 false, .copyAssign 0 2]

/-- The copy then answers from the request of the other object; and where the original has been
destroyed, it is read all the same. -/
theorem copy_reads_original :
    (∃ s, (machine pages id).run (fun _ => none) reassigned = some s ∧
      fcgiRequest s 1 = some true ∧
      (httpRequest pages id s 1).2 = (.value (pages false).viewArgs, [1, 0]) ∧
      ¬ ReadsOwn pages id (fun _ => RequestViewArgs.requestUri) s (.call 1 () : Label _ _ Unit)) ∧
    ∃ s, (machine pages id).run (fun _ => none) (reassigned.take 2 ++ [.destroy 0]) = some s ∧
      fcgiRequest s 1 = some true ∧ (httpRequest pages id s 1).2 = (.undefined, [1, 0]) := by
  refine ⟨⟨_, rfl, rfl, rfl, ?_⟩, _, rfl, rfl, rfl⟩
  rintro ⟨ref, href, -, hread⟩
  exact absurd (hread 0 (List.mem_cons_of_mem _ List.mem_cons_self)) (by decide)

end Operations

end Requests

end Asyncgi
