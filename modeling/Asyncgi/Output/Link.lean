import Asyncgi.Output.WriteState
import Asyncgi.Transition.Run

/-!
# A connection and its socket

The write side of `Connection` and of `ClientConnection`, together with the socket it writes to
and the `async_write` operations in flight. The bytes of a write are read from `writeBuffer_` at
the moment they go out, as `asio::buffer(writeBuffer_)` is a view and not a copy, so a buffer
changed under a write in flight would show on the socket.

What is taken from asio: a write completes in a later turn of the event loop, puts its bytes on
the socket in order while the socket is open, and reports success only after all of them; a
failed one may have put any prefix there.

## Main definitions

* `Link`, `Link.Label`, `Link.machine`: the connection's write side, its moves and its runs
* `Side`: which of the two classes; they differ in what a failed write does

## Main results

* `Link.Step.of_step`: what a move can do
* `Link.phase_step`, `Link.phase_run`: a link is idle, has one write of a non-empty buffer in
  flight, or has lost one
-/

namespace Asyncgi

/-- An `async_write` in flight: the contents `writeBuffer_` had when it was initiated, and how
many of its bytes are on the socket. -/
structure AsyncWrite where
  data : Bytes
  written : Nat := 0
  deriving DecidableEq, Repr

/-- A connection's write side and its socket. -/
structure Link where
  out : WriteState := {}
  isOpen : Bool := true
  writes : List AsyncWrite := []
  /-- The bytes put on the socket. -/
  sent : Bytes := []
  /-- Some write has completed with an error. -/
  failed : Bool := false
  /-- The calls of the event handler. -/
  events : List (ErrorEvent × String) := []
  deriving DecidableEq, Repr

/-- The two classes that write to a socket. -/
inductive Side
  | connection
  | clientConnection
  deriving DecidableEq, Repr

namespace Link

/-- `close`, where `closeError` is what `socket_.close` reports. -/
def close (s : Link) (closeError : Option String) : Link :=
  { s with
    isOpen := false
    out := s.out.onClose
    events := s.events ++ (closeError.map fun msg => (ErrorEvent.socketCloseError, msg)).toList }

/-- The members after a function of the write side, and its call on the socket. -/
def perform (s : Link) (closeError : Option String) : WriteState × SocketCall → Link
  | (w, .none) => { s with out := w }
  | (w, .asyncWrite) => { s with out := w, writes := s.writes ++ [{ data := w.writeBuffer }] }
  | (w, .close) => close { s with out := w } closeError

section

variable (s : Link) (e : Option String) (w : WriteState)

@[simp] theorem perform_none : s.perform e (w, .none) = { s with out := w } := rfl

@[simp] theorem perform_asyncWrite :
    s.perform e (w, .asyncWrite) =
      { s with out := w, writes := s.writes ++ [{ data := w.writeBuffer }] } := rfl

@[simp] theorem perform_close : s.perform e (w, .close) = close { s with out := w } e := rfl

end

/-- The error branch of the completion handler that `sendData` passes to `async_write`:
`Connection` closes the socket, `ClientConnection` only reports. -/
def onWriteError (side : Side) (s : Link) (msg : String) (closeError : Option String) : Link :=
  let s := { s with
    failed := true
    events := s.events ++ [(ErrorEvent.socketWriteError, msg)] }
  match side with
  | .connection => s.close closeError
  | .clientConnection => s

/-- The moves of a link. Writes in flight are named by their position. -/
inductive Label
  | sendData (data : Bytes)
  | disconnect (closeError : Option String)
  /-- `k` more bytes of a write go out. -/
  | progress (i k : Nat)
  /-- A write completes with success. -/
  | complete (i : Nat) (closeError : Option String)
  /-- A write completes with an error. -/
  | fail (i : Nat) (msg : String) (closeError : Option String)
  /-- `close` from elsewhere: a read error, the destructor. -/
  | close (closeError : Option String)
  deriving DecidableEq, Repr

/-- The bytes a move hands to `sendData`. -/
def Label.input : Label → Bytes
  | sendData d => d
  | _ => []

/-- One move of a link. -/
def step (side : Side) (s : Link) : Label → Option Link
  | .sendData d => some (s.perform none (s.out.sendData d))
  | .disconnect e => some (s.perform e s.out.disconnect)
  | .progress i k =>
    match s.writes[i]? with
    | some w =>
      if s.isOpen ∧ w.written + k ≤ w.data.length then
        some { s with
          writes := s.writes.set i { w with written := w.written + k }
          sent := s.sent ++ (s.out.writeBuffer.drop w.written).take k }
      else none
    | none => none
  | .complete i e =>
    match s.writes[i]? with
    | some w =>
      if w.written = w.data.length then
        some (perform { s with writes := s.writes.eraseIdx i } e
          (s.out.onBytesWritten w.data.length))
      else none
    | none => none
  | .fail i msg e =>
    match s.writes[i]? with
    | some _ => some (onWriteError side { s with writes := s.writes.eraseIdx i } msg e)
    | none => none
  | .close e => some (s.close e)

/-- A link of either class, from the moment its socket is connected. -/
def machine (side : Side) : Machine Link Label where
  init := {}
  step := step side

/-- The moves of a link, case by case. -/
inductive Step (side : Side) (s : Link) : Label → Link → Prop
  | sendData {d} : Step side s (.sendData d) (s.perform none (s.out.sendData d))
  | disconnect {e} : Step side s (.disconnect e) (s.perform e s.out.disconnect)
  | progress {i k w} (hw : s.writes[i]? = some w) (hopen : s.isOpen = true)
      (hk : w.written + k ≤ w.data.length) :
      Step side s (.progress i k) { s with
        writes := s.writes.set i { w with written := w.written + k }
        sent := s.sent ++ (s.out.writeBuffer.drop w.written).take k }
  | complete {i e w} (hw : s.writes[i]? = some w) (hfull : w.written = w.data.length) :
      Step side s (.complete i e) (perform { s with writes := s.writes.eraseIdx i } e
        (s.out.onBytesWritten w.data.length))
  | fail {i msg e w} (hw : s.writes[i]? = some w) : Step side s (.fail i msg e)
      (onWriteError side { s with writes := s.writes.eraseIdx i } msg e)
  | close {e} : Step side s (.close e) (s.close e)

theorem Step.of_step {side : Side} {s t : Link} {a : Label}
    (h : (machine side).step s a = some t) : Step side s a t := by
  cases a with
  | sendData d =>
    obtain rfl := Option.some.inj h
    exact .sendData
  | disconnect e =>
    obtain rfl := Option.some.inj h
    exact .disconnect
  | progress i k =>
    simp only [machine, Link.step] at h
    split at h
    next w hw =>
      obtain ⟨⟨hopen, hk⟩, rfl⟩ := Option.ite_some_none_eq_some.mp h
      exact .progress hw hopen hk
    next => cases h
  | complete i e =>
    simp only [machine, Link.step] at h
    split at h
    next w hw =>
      obtain ⟨hfull, rfl⟩ := Option.ite_some_none_eq_some.mp h
      exact .complete hw hfull
    next => cases h
  | fail i msg e =>
    simp only [machine, Link.step] at h
    split at h
    next w hw =>
      obtain rfl := Option.some.inj h
      exact .fail hw
    next => cases h
  | close e =>
    obtain rfl := Option.some.inj h
    exact .close

/-! ## The phases of a link -/

/-- What a link that was given the bytes `acc` is doing: nothing is left to write; one write of
a non-empty buffer is in flight and the rest waits; or such a write has failed, and what waits
will not be written. Writes of empty buffers may be in flight in every phase. -/
inductive Phase (acc : Bytes) (s : Link) : Prop
  | idle (hbytes : s.out.bytesToWrite = 0) (hempty : ∀ w ∈ s.writes, w.data = [])
      (hnext : s.out.nextWriteBuffer = []) (hsent : s.sent = acc)
  | writing (l r : List AsyncWrite) (w : AsyncWrite) (done : Bytes)
      (hwrites : s.writes = l ++ w :: r) (hempty : ∀ x ∈ l ++ r, x.data = [])
      (hdata : w.data = s.out.writeBuffer) (hne : w.data ≠ [])
      (hbytes : s.out.bytesToWrite = w.data.length) (hwritten : w.written ≤ w.data.length)
      (hsent : s.sent = done ++ w.data.take w.written)
      (hacc : acc = done ++ w.data ++ s.out.nextWriteBuffer)
  | lost (hfailed : s.failed = true) (hbytes : s.out.bytesToWrite ≠ 0)
      (hempty : ∀ w ∈ s.writes, w.data = []) (hsent : s.sent <+: acc)

/-- An entry of a list with a marked entry is the marked one or another one. -/
theorem marked_cases {α : Type} {l r : List α} {w x : α} {i : Nat}
    (h : (l ++ w :: r)[i]? = some x) :
    (x = w ∧ (∀ y, (l ++ w :: r).set i y = l ++ y :: r) ∧ (l ++ w :: r).eraseIdx i = l ++ r) ∨
      (x ∈ l ++ r ∧
        (∀ y, ∃ l' r', (l ++ w :: r).set i y = l' ++ w :: r' ∧ ∀ z ∈ l' ++ r', z ∈ l ++ r ∨ z = y) ∧
        ∃ l' r', (l ++ w :: r).eraseIdx i = l' ++ w :: r' ∧ ∀ z ∈ l' ++ r', z ∈ l ++ r) := by
  rcases Nat.lt_trichotomy i l.length with hi | rfl | hi
  · right
    rw [List.getElem?_append_left hi] at h
    refine ⟨List.mem_append_left _ (List.mem_of_getElem? h), fun y => ?_, ?_⟩
    · refine ⟨l.set i y, r, List.set_append_left _ _ hi, fun z hz => ?_⟩
      rcases List.mem_append.mp hz with hz | hz
      · rcases List.mem_or_eq_of_mem_set hz with hz | rfl
        · exact Or.inl (List.mem_append_left _ hz)
        · exact Or.inr rfl
      · exact Or.inl (List.mem_append_right _ hz)
    · refine ⟨l.eraseIdx i, r, List.eraseIdx_append_of_lt_length hi _, fun z hz => ?_⟩
      rcases List.mem_append.mp hz with hz | hz
      · exact List.mem_append_left _ (List.mem_of_mem_eraseIdx hz)
      · exact List.mem_append_right _ hz
  · left
    simp only [List.getElem?_append_right (Nat.le_refl _), Nat.sub_self, List.getElem?_cons_zero,
      Option.some.injEq] at h
    exact ⟨h.symm, fun y => by simp, by simp [List.eraseIdx_append_of_length_le]⟩
  · right
    obtain ⟨j, rfl⟩ : ∃ j, i = l.length + (j + 1) := ⟨i - l.length - 1, by omega⟩
    simp only [List.getElem?_append_right (Nat.le_add_right _ _), Nat.add_sub_cancel_left,
      List.getElem?_cons_succ] at h
    refine ⟨List.mem_append_right _ (List.mem_of_getElem? h), fun y => ?_, ?_⟩
    · refine ⟨l, r.set j y, by simp, fun z hz => ?_⟩
      rcases List.mem_append.mp hz with hz | hz
      · exact Or.inl (List.mem_append_left _ hz)
      · rcases List.mem_or_eq_of_mem_set hz with hz | rfl
        · exact Or.inl (List.mem_append_right _ hz)
        · exact Or.inr rfl
    · refine ⟨l, r.eraseIdx j, ?_, fun z hz => ?_⟩
      · rw [List.eraseIdx_append_of_length_le (Nat.le_add_right _ _), Nat.add_sub_cancel_left,
          List.eraseIdx_cons_succ]
      · rcases List.mem_append.mp hz with hz | hz
        · exact List.mem_append_left _ hz
        · exact List.mem_append_right _ (List.mem_of_mem_eraseIdx hz)

variable {acc : Bytes} {s t : Link}

theorem phase_init : Phase [] {} :=
  .idle rfl (by simp) rfl rfl

/-- Closing the socket, or reporting an event, leaves the phase as it is. -/
theorem Phase.close (h : Phase acc s) (e : Option String) : Phase acc (s.close e) := by
  cases h with
  | idle hbytes hempty hnext hsent => exact .idle hbytes hempty hnext hsent
  | writing l r w done hwrites hempty hdata hne hbytes hwritten hsent hacc =>
    exact .writing l r w done hwrites hempty hdata hne hbytes hwritten hsent hacc
  | lost hfailed hbytes hempty hsent => exact .lost hfailed hbytes hempty hsent

/-- `sendData` on an idle link starts a write; otherwise the data waits. -/
theorem Phase.sendData (h : Phase acc s) (d : Bytes) (e : Option String) :
    Phase (acc ++ d) (s.perform e (s.out.sendData d)) := by
  cases h with
  | idle hbytes hempty hnext hsent =>
    rw [WriteState.sendData_of_idle hbytes hnext]
    rcases eq_or_ne d [] with rfl | hd
    · refine .idle rfl ?_ hnext (by simpa using hsent)
      simpa [or_imp, forall_and] using hempty
    · refine .writing s.writes [] { data := d } acc rfl (by simpa using hempty) rfl hd rfl
        (Nat.zero_le _) ?_ ?_
      · simpa using hsent
      · simp [hnext]
  | writing l r w done hwrites hempty hdata hne hbytes hwritten hsent hacc =>
    have hbusy : s.out.bytesToWrite ≠ 0 := by simpa [hbytes] using hne
    rw [WriteState.sendData_of_busy hbusy]
    exact .writing l r w done hwrites hempty hdata hne hbytes hwritten hsent (by simp [hacc])
  | lost hfailed hbytes hempty hsent =>
    rw [WriteState.sendData_of_busy hbytes]
    exact .lost hfailed hbytes hempty (hsent.trans (List.prefix_append _ _))

theorem Phase.disconnect (h : Phase acc s) (e : Option String) :
    Phase acc (s.perform e s.out.disconnect) := by
  have hflag : Phase acc { s with out := { s.out with disconnectRequested := true } } := by
    cases h with
    | idle hbytes hempty hnext hsent => exact .idle hbytes hempty hnext hsent
    | writing l r w done hwrites hempty hdata hne hbytes hwritten hsent hacc =>
      exact .writing l r w done hwrites hempty hdata hne hbytes hwritten hsent hacc
    | lost hfailed hbytes hempty hsent => exact .lost hfailed hbytes hempty hsent
  by_cases hbytes : s.out.bytesToWrite > 0
  · simpa [WriteState.disconnect, hbytes] using hflag
  · simpa [WriteState.disconnect, hbytes] using hflag.close e

/-- The bytes of a write go out from a buffer that is still what the write was given. -/
theorem Phase.progress (h : Phase acc s) {i k : Nat} {w : AsyncWrite} (hw : s.writes[i]? = some w)
    (hk : w.written + k ≤ w.data.length) :
    Phase acc { s with
      writes := s.writes.set i { w with written := w.written + k }
      sent := s.sent ++ (s.out.writeBuffer.drop w.written).take k } := by
  -- a write of an empty buffer moves no byte
  have hzero : w.data = [] → k = 0 := by rintro h; simp [h] at hk; omega
  cases h with
  | idle hbytes hempty hnext hsent =>
    obtain rfl := hzero (hempty w (List.mem_of_getElem? hw))
    refine .idle hbytes (fun x hx => ?_) hnext (by simpa using hsent)
    rcases List.mem_or_eq_of_mem_set hx with hx | rfl
    · exact hempty x hx
    · exact hempty w (List.mem_of_getElem? hw)
  | writing l r v done hwrites hempty hdata hne hbytes hwritten hsent hacc =>
    rw [hwrites] at hw
    rcases marked_cases hw with ⟨rfl, hset, -⟩ | ⟨hmem, hset, -⟩
    · refine .writing l r { w with written := w.written + k } done ?_ hempty hdata hne hbytes hk
        ?_ hacc
      · simp [hwrites, hset]
      · simp [hsent, hdata, ← List.take_add]
    · obtain rfl := hzero (hempty w hmem)
      obtain ⟨l', r', heq, hsub⟩ := hset { w with written := w.written + 0 }
      refine .writing l' r' v done (by simpa [hwrites] using heq) (fun x hx => ?_) hdata hne hbytes
        hwritten (by simpa using hsent) hacc
      rcases hsub x hx with hx | rfl
      · exact hempty x hx
      · exact hempty w hmem
  | lost hfailed hbytes hempty hsent =>
    obtain rfl := hzero (hempty w (List.mem_of_getElem? hw))
    refine .lost hfailed hbytes (fun x hx => ?_) (by simpa using hsent)
    rcases List.mem_or_eq_of_mem_set hx with hx | rfl
    · exact hempty x hx
    · exact hempty w (List.mem_of_getElem? hw)

/-- A completed write of the buffer makes room for the data that waits. -/
theorem Phase.complete (h : Phase acc s) {i : Nat} {w : AsyncWrite} (hw : s.writes[i]? = some w)
    (hfull : w.written = w.data.length) (e : Option String) :
    Phase acc (perform { s with writes := s.writes.eraseIdx i } e
      (s.out.onBytesWritten w.data.length)) := by
  cases h with
  | idle hbytes hempty hnext hsent =>
    have herase : ∀ x ∈ s.writes.eraseIdx i, x.data = [] := fun x hx =>
      hempty x (List.mem_of_mem_eraseIdx hx)
    rw [WriteState.onBytesWritten_of_empty (by omega) hnext]
    cases s.out.disconnectRequested
    · exact .idle rfl herase hnext hsent
    · exact .idle rfl herase hnext hsent
  | writing l r v done hwrites hempty hdata hne hbytes hwritten hsent hacc =>
    rw [hwrites] at hw
    rcases marked_cases hw with ⟨rfl, -, herase⟩ | ⟨hmem, -, l', r', herase, hsub⟩
    · have hdone : s.sent = done ++ w.data := by simpa [hfull] using hsent
      rcases eq_or_ne s.out.nextWriteBuffer [] with hnext | hnext
      · rw [WriteState.onBytesWritten_of_empty (Nat.le_of_eq hbytes) hnext]
        have hidle : s.sent = acc := by simp [hacc, hnext, hdone]
        cases s.out.disconnectRequested
        · exact .idle rfl (by simpa [hwrites, herase] using hempty) hnext hidle
        · exact .idle rfl (by simpa [Link.close, hwrites, herase] using hempty) hnext hidle
      · rw [WriteState.onBytesWritten_of_waiting (Nat.le_of_eq hbytes) hnext]
        refine .writing (l ++ r) [] { data := s.out.nextWriteBuffer } (done ++ w.data) ?_
          (by simpa using hempty) rfl hnext rfl (Nat.zero_le _) (by simpa using hdone)
          (by simp [hacc])
        simp [hwrites, herase]
    · have hlt : w.data.length < s.out.bytesToWrite := by
        rw [hempty w hmem, hbytes]
        exact List.length_pos_iff.mpr hne
      rw [WriteState.onBytesWritten_of_lt hlt]
      refine .writing l' r' v done (by simpa [hwrites] using herase)
        (fun x hx => hempty x (hsub x hx)) hdata hne ?_ hwritten hsent hacc
      simp [hempty w hmem, hbytes]
  | lost hfailed hbytes hempty hsent =>
    have hlt : w.data.length < s.out.bytesToWrite := by
      rw [hempty w (List.mem_of_getElem? hw)]
      exact Nat.pos_of_ne_zero hbytes
    rw [WriteState.onBytesWritten_of_lt hlt]
    refine .lost hfailed ?_ (fun x hx => hempty x (List.mem_of_mem_eraseIdx hx)) hsent
    simp only [perform_none]
    omega

/-- A failed write of a non-empty buffer leaves `bytesToWrite_` above zero for good. -/
theorem Phase.fail (h : Phase acc s) {i : Nat} {w : AsyncWrite} (hw : s.writes[i]? = some w)
    (side : Side) (msg : String) (e : Option String) :
    Phase acc (onWriteError side { s with writes := s.writes.eraseIdx i } msg e) := by
  suffices hs : Phase acc { s with
      writes := s.writes.eraseIdx i
      failed := true
      events := s.events ++ [(ErrorEvent.socketWriteError, msg)] } by
    cases side with
    | connection => exact hs.close e
    | clientConnection => exact hs
  cases h with
  | idle hbytes hempty hnext hsent =>
    exact .idle hbytes (fun x hx => hempty x (List.mem_of_mem_eraseIdx hx)) hnext hsent
  | writing l r v done hwrites hempty hdata hne hbytes hwritten hsent hacc =>
    rw [hwrites] at hw
    rcases marked_cases hw with ⟨rfl, -, herase⟩ | ⟨hmem, -, l', r', herase, hsub⟩
    · refine .lost rfl (by simpa [hbytes] using hne) (by simpa [hwrites, herase] using hempty) ?_
      rw [hsent, hacc, List.append_assoc]
      exact List.prefix_append_right_inj _ |>.mpr
        ((List.take_prefix _ _).trans (List.prefix_append _ _))
    · exact .writing l' r' v done (by simpa [hwrites] using herase)
        (fun x hx => hempty x (hsub x hx)) hdata hne hbytes hwritten hsent hacc
  | lost hfailed hbytes hempty hsent =>
    exact .lost rfl hbytes (fun x hx => hempty x (List.mem_of_mem_eraseIdx hx)) hsent

/-- **Every move keeps a link in one of its phases**, with the bytes it was given so far. -/
theorem phase_step {side : Side} {a : Label} (h : Phase acc s)
    (ht : (machine side).step s a = some t) : Phase (acc ++ a.input) t := by
  cases Step.of_step ht with
  | sendData => exact h.sendData _ none
  | disconnect => simpa [Label.input] using h.disconnect _
  | progress hw _ hk => simpa [Label.input] using h.progress hw hk
  | complete hw hfull => simpa [Label.input] using h.complete hw hfull _
  | fail hw => simpa [Label.input] using h.fail hw side _ _
  | close => simpa [Label.input] using h.close _

/-- The bytes handed to `sendData` in a run, in order. -/
def accepted (l : List Label) : Bytes := l.flatMap Label.input

/-- A link is in one of its phases in every state it can reach. -/
theorem phase_run {side : Side} {l : List Label} (h : (machine side).run {} l = some s) :
    Phase (accepted l) s := by
  suffices hall : ∀ {acc u}, Phase acc u → (machine side).run u l = some s →
      Phase (acc ++ accepted l) s from hall phase_init h
  clear h
  induction l with
  | nil =>
    intro acc u hu hl
    obtain rfl := Option.some.inj hl
    simpa [accepted] using hu
  | cons a l ih =>
    intro acc u hu hl
    obtain ⟨v, hv, hl⟩ := (Machine.run_cons_eq_some _).mp hl
    simpa [accepted, List.append_assoc] using ih (phase_step hu hv) hl

end Link

end Asyncgi
