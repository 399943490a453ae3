import Asyncgi.Output.Link
import Asyncgi.Transition.Ghost

/-!
# A requested disconnect

`disconnect` closes the socket where nothing is left to write, and otherwise leaves that to the
completion of the last write. A failed write closes the socket of a `Connection`. Of a
`ClientConnection` it is only reported: the bytes that were lost stay in `bytesToWrite_`, and no
completion closes the socket any more.

## Main definitions

* `Link.History`, `Link.recorded`: the runs of a link beside what has happened to it
* `Link.Closes`: a requested disconnect has closed the socket, or waits for a write
* `Link.Strands`: the socket was asked to close and has lost a write

## Main results

* `Link.stuck_step`: only a failed write of a non-empty buffer leaves a link stuck
* `Link.disconnect_closes_iff`: a requested disconnect closes the socket in the runs that never
  strand it
-/

namespace Asyncgi

namespace Link

/-- What has happened to a link. -/
structure History where
  /-- `disconnect` has been called while the socket was open. -/
  asked : Bool := false
  /-- The write of a non-empty buffer has failed. -/
  lost : Bool := false
  deriving DecidableEq, Repr

/-- The move calls `disconnect` on the open socket. -/
def Label.asks (s : Link) : Label → Bool
  | disconnect _ => s.isOpen
  | _ => false

/-- The move is the failure of a write of a non-empty buffer. -/
def Label.loses (s : Link) : Label → Bool
  | fail i _ _ => s.writes[i]?.any (·.data ≠ [])
  | _ => false

/-- The history after a move. -/
def History.record (s : Link) (a : Label) (g : History) : History :=
  { asked := g.asked || a.asks s, lost := g.lost || a.loses s }

/-- A link beside its history. -/
abbrev recorded (side : Side) : Machine (Link × History) Label :=
  (machine side).withGhost History.record {}

/-- Where `disconnect` has been called on the open socket and no write of a non-empty buffer is in
flight, the socket is closed. -/
def Closes (p : Link × History) : Prop :=
  p.2.asked = true → (∀ w ∈ p.1.writes, w.data = []) → p.1.isOpen = false

/-- With the move, both have happened to the open socket of a `ClientConnection`: `disconnect` has
been called, and the write of a non-empty buffer has failed. -/
def Strands (side : Side) (p : Link × History) (a : Label) : Prop :=
  side = .clientConnection ∧ p.1.isOpen = true ∧
    (p.2.record p.1 a).asked = true ∧ (p.2.record p.1 a).lost = true

/-! ## A link that has lost a write -/

/-- Bytes are left to write, and no write in flight has any. -/
def Stuck (s : Link) : Prop := s.out.bytesToWrite ≠ 0 ∧ ∀ w ∈ s.writes, w.data = []

variable {acc : Bytes} {s t : Link} {side : Side}

theorem Stuck.congr (hbytes : t.out.bytesToWrite = s.out.bytesToWrite)
    (hwrites : t.writes = s.writes) : t.Stuck ↔ s.Stuck := by
  rw [Stuck, Stuck, hbytes, hwrites]

theorem not_stuck_of_zero (h : s.out.bytesToWrite = 0) : ¬ s.Stuck := fun hs => hs.1 h

theorem not_stuck_of_mem {w : AsyncWrite} (hw : w ∈ s.writes) (hne : w.data ≠ []) : ¬ s.Stuck :=
  fun hs => hne (hs.2 w hw)

theorem Phase.stuck_sendData (h : Phase acc s) (d : Bytes) (e : Option String) :
    (s.perform e (s.out.sendData d)).Stuck ↔ s.Stuck := by
  by_cases hbusy : s.out.bytesToWrite = 0
  · refine iff_of_false ?_ (not_stuck_of_zero hbusy)
    cases h with
    | idle _ _ hnext =>
      rw [WriteState.sendData_of_idle hbusy hnext]
      rcases eq_or_ne d [] with rfl | hd
      · exact not_stuck_of_zero rfl
      · exact not_stuck_of_mem (w := { data := d }) (by simp) hd
    | writing l r w _ _ _ _ hne hbytes =>
      exact absurd (List.length_eq_zero_iff.mp (hbytes.symm.trans hbusy)) hne
    | lost _ hbytes => exact absurd hbusy hbytes
  · rw [WriteState.sendData_of_busy hbusy]
    exact Stuck.congr rfl rfl

theorem stuck_disconnect (s : Link) (e : Option String) :
    (s.perform e s.out.disconnect).Stuck ↔ s.Stuck := by
  unfold WriteState.disconnect
  dsimp only
  split
  · exact Stuck.congr rfl rfl
  · exact Stuck.congr rfl rfl

theorem stuck_progress {i k : Nat} {w : AsyncWrite} (hw : s.writes[i]? = some w) (sent : Bytes) :
    ({ s with
      writes := s.writes.set i { w with written := w.written + k }
      sent := sent } : Link).Stuck ↔ s.Stuck := by
  refine and_congr Iff.rfl ?_
  have hdata : (s.writes.set i { w with written := w.written + k }).map AsyncWrite.data =
      s.writes.map AsyncWrite.data := by
    apply List.ext_getElem?
    intro j
    by_cases hj : i = j
    · subst hj
      obtain ⟨hi, rfl⟩ := List.getElem?_eq_some_iff.mp hw
      simp [hi]
    · simp [hj]
  have hall : ∀ l : List AsyncWrite,
      (∀ x ∈ l, x.data = []) ↔ ∀ b ∈ l.map AsyncWrite.data, b = [] := by
    simp
  rw [hall, hall s.writes]
  exact iff_of_eq (by rw [← hdata])

theorem Phase.stuck_complete (h : Phase acc s) {i : Nat} {w : AsyncWrite}
    (hw : s.writes[i]? = some w) (e : Option String) :
    (perform { s with writes := s.writes.eraseIdx i } e
      (s.out.onBytesWritten w.data.length)).Stuck ↔ s.Stuck := by
  cases h with
  | idle hbytes _ hnext =>
    refine iff_of_false ?_ (not_stuck_of_zero hbytes)
    rw [WriteState.onBytesWritten_of_empty (by omega) hnext]
    cases s.out.disconnectRequested
    · exact not_stuck_of_zero rfl
    · exact not_stuck_of_zero rfl
  | writing l r v done hwrites hempty hdata hne hbytes =>
    refine iff_of_false ?_ (not_stuck_of_mem (by simp [hwrites]) hne)
    rw [hwrites] at hw
    rcases marked_cases hw with ⟨rfl, -, -⟩ | ⟨hmem, -, l', r', herase, -⟩
    · rcases eq_or_ne s.out.nextWriteBuffer [] with hnext | hnext
      · rw [WriteState.onBytesWritten_of_empty (Nat.le_of_eq hbytes) hnext]
        cases s.out.disconnectRequested
        · exact not_stuck_of_zero rfl
        · exact not_stuck_of_zero rfl
      · rw [WriteState.onBytesWritten_of_waiting (Nat.le_of_eq hbytes) hnext]
        exact not_stuck_of_mem (w := { data := s.out.nextWriteBuffer }) (by simp) hnext
    · have hlt : w.data.length < s.out.bytesToWrite := by
        rw [hempty w hmem, hbytes]
        exact List.length_pos_iff.mpr hne
      rw [WriteState.onBytesWritten_of_lt hlt]
      exact not_stuck_of_mem (w := v) (by simp [hwrites, herase]) hne
  | lost _ hbytes hempty =>
    have hwe := hempty w (List.mem_of_getElem? hw)
    have hlt : w.data.length < s.out.bytesToWrite := by
      rw [hwe]
      exact Nat.pos_of_ne_zero hbytes
    rw [WriteState.onBytesWritten_of_lt hlt]
    refine iff_of_true ⟨?_, fun x hx => hempty x (List.mem_of_mem_eraseIdx hx)⟩ ⟨hbytes, hempty⟩
    simp only [perform_none]
    omega

theorem Phase.stuck_fail (h : Phase acc s) {i : Nat} {w : AsyncWrite} (hw : s.writes[i]? = some w) :
    ({ s with writes := s.writes.eraseIdx i } : Link).Stuck ↔ s.Stuck ∨ w.data ≠ [] := by
  have hmem := List.mem_of_getElem? hw
  cases h with
  | idle hbytes hempty =>
    refine iff_of_false (not_stuck_of_zero hbytes) ?_
    rintro (hs | hne)
    · exact not_stuck_of_zero hbytes hs
    · exact hne (hempty w hmem)
  | writing l r v done hwrites hempty hdata hne hbytes =>
    rw [hwrites] at hw
    rcases marked_cases hw with ⟨rfl, -, herase⟩ | ⟨hmem, -, l', r', herase, -⟩
    · refine iff_of_true ⟨?_, ?_⟩ (Or.inr hne)
      · simpa [hbytes] using hne
      · simpa [hwrites, herase] using hempty
    · refine iff_of_false (not_stuck_of_mem (w := v) (by simp [hwrites, herase]) hne) ?_
      rintro (hs | hw)
      · exact not_stuck_of_mem (by simp [hwrites]) hne hs
      · exact hw (hempty w hmem)
  | lost _ hbytes hempty =>
    exact iff_of_true ⟨hbytes, fun x hx => hempty x (List.mem_of_mem_eraseIdx hx)⟩
      (Or.inl ⟨hbytes, hempty⟩)

/-- **A link gets stuck by the failure of a write of a non-empty buffer**, and stays so. -/
theorem stuck_step {a : Label} (h : Phase acc s) (ht : (machine side).step s a = some t) :
    t.Stuck ↔ s.Stuck ∨ a.loses s = true := by
  cases Step.of_step ht with
  | sendData => simpa [Label.loses] using h.stuck_sendData _ none
  | disconnect => simpa [Label.loses] using stuck_disconnect s _
  | progress hw => simpa [Label.loses] using stuck_progress hw _
  | complete hw => simpa [Label.loses] using h.stuck_complete hw _
  | @fail i msg e w hw =>
    have hstuck : (onWriteError side { s with writes := s.writes.eraseIdx i } msg e).Stuck ↔
        ({ s with writes := s.writes.eraseIdx i } : Link).Stuck := by
      cases side with
      | connection => exact Stuck.congr rfl rfl
      | clientConnection => exact Stuck.congr rfl rfl
    rw [hstuck, h.stuck_fail hw]
    simp [Label.loses, hw]
  | @close e =>
    have hclose : (s.close e).Stuck ↔ s.Stuck := Stuck.congr rfl rfl
    simpa [Label.loses] using hclose

/-! ## The deferred close -/

/-- On the open socket a requested disconnect waits for bytes that are left to write. -/
def Waits (s : Link) : Prop :=
  s.isOpen = true → s.out.disconnectRequested = true → s.out.bytesToWrite ≠ 0

/-- Nothing is left to close. -/
theorem closed_waits {P : Prop} (h : s.isOpen = false) : s.Waits ∧ (s.isOpen = true → P) :=
  ⟨fun hopen => absurd hopen (by simp [h]), fun hopen => absurd hopen (by simp [h])⟩

/-- A completed write leaves the request for later only while bytes are left to write. -/
theorem waits_onBytesWritten (s : Link) (n : Nat) (e : Option String) :
    (s.perform e (s.out.onBytesWritten n)).Waits ∧
      ((s.perform e (s.out.onBytesWritten n)).isOpen = true → s.isOpen = true ∧
        (s.perform e (s.out.onBytesWritten n)).out.disconnectRequested =
          s.out.disconnectRequested) := by
  by_cases hlt : n < s.out.bytesToWrite
  · rw [WriteState.onBytesWritten_of_lt hlt]
    refine ⟨fun _ _ => ?_, fun hopen => ⟨hopen, rfl⟩⟩
    simp only [perform_none]
    omega
  · have hle := Nat.not_lt.mp hlt
    rcases eq_or_ne s.out.nextWriteBuffer [] with hnext | hnext
    · rw [WriteState.onBytesWritten_of_empty hle hnext]
      by_cases hrequested : s.out.disconnectRequested = true
      · rw [if_pos hrequested]
        exact closed_waits rfl
      · rw [if_neg hrequested]
        exact ⟨fun _ hreq => absurd hreq hrequested, fun hopen => ⟨hopen, rfl⟩⟩
    · rw [WriteState.onBytesWritten_of_waiting hle hnext]
      refine ⟨fun _ _ => ?_, fun hopen => ⟨hopen, rfl⟩⟩
      simpa using hnext

/-- The flag is raised by `disconnect`, and lowered only with the socket. -/
theorem waits_step {a : Label} (h : s.Waits) (ht : (machine side).step s a = some t) :
    t.Waits ∧ (t.isOpen = true → s.isOpen = true ∧
      t.out.disconnectRequested = (s.out.disconnectRequested || a.asks s)) := by
  cases Step.of_step ht with
  | @sendData d =>
    by_cases hbusy : s.out.bytesToWrite = 0
    · have hsame : (s.perform none (s.out.sendData d)).isOpen = s.isOpen ∧
          (s.perform none (s.out.sendData d)).out.disconnectRequested =
            s.out.disconnectRequested := by
        unfold WriteState.sendData
        rw [if_neg (not_not.mpr hbusy)]
        constructor
        · rfl
        · dsimp only [perform_asyncWrite]
          split <;> rfl
      refine ⟨fun hopen hrequested => ?_,
        fun hopen => ⟨hsame.1 ▸ hopen, by simp [hsame.2, Label.asks]⟩⟩
      exact absurd hbusy (h (hsame.1 ▸ hopen) (hsame.2 ▸ hrequested))
    · rw [WriteState.sendData_of_busy hbusy]
      exact ⟨h, fun hopen => ⟨hopen, by simp [Label.asks]⟩⟩
  | @disconnect e =>
    unfold WriteState.disconnect
    dsimp only
    split
    next hbytes =>
      exact ⟨fun _ _ => Nat.ne_of_gt hbytes, fun hopen => ⟨hopen, by
        have hasks : Label.asks s (.disconnect e) = true := hopen
        simp [hasks]⟩⟩
    next => exact closed_waits rfl
  | progress => exact ⟨h, fun hopen => ⟨hopen, by simp [Label.asks]⟩⟩
  | @complete i e w =>
    simpa [Label.asks] using
      waits_onBytesWritten { s with writes := s.writes.eraseIdx i } w.data.length e
  | fail =>
    cases side with
    | connection => exact closed_waits rfl
    | clientConnection => exact ⟨h, fun hopen => ⟨hopen, by simp [Label.asks, onWriteError]⟩⟩
  | close => exact closed_waits rfl

/-! ## The runs of a link -/

/-- What holds of a link beside its history. -/
structure Tidy (side : Side) (p : Link × History) : Prop where
  phase : ∃ acc, Phase acc p.1
  waits : p.1.Waits
  asked : p.1.isOpen = true → p.2.asked = p.1.out.disconnectRequested
  lost : p.2.lost = true ↔ p.1.Stuck
  /-- The failure of a write closes the socket of a `Connection`. -/
  closed : side = .connection → p.2.lost = true → p.1.isOpen = false

variable {p q : Link × History}

theorem tidy_init (side : Side) : Tidy side ({}, {}) where
  phase := ⟨[], phase_init⟩
  waits _ h := absurd h Bool.false_ne_true
  asked _ := rfl
  lost := iff_of_false Bool.false_ne_true (not_stuck_of_zero rfl)
  closed _ h := absurd h Bool.false_ne_true

theorem loses_closes {a : Label} (ha : a.loses s = true)
    (ht : (machine .connection).step s a = some t) : t.isOpen = false := by
  cases Step.of_step ht with
  | fail => rfl
  | _ => cases ha

theorem Tidy.step (h : Tidy side p) {a : Label} (hq : (recorded side).step p a = some q) :
    Tidy side q := by
  obtain ⟨ht, hg⟩ := Machine.withGhost_step_eq_some.mp hq
  obtain ⟨acc, hphase⟩ := h.phase
  obtain ⟨hwaits, hopen⟩ := waits_step h.waits ht
  refine ⟨⟨_, phase_step hphase ht⟩, hwaits, fun hq => ?_, ?_, fun hside hlost => ?_⟩
  · rw [(hopen hq).2, ← h.asked (hopen hq).1, hg]
    rfl
  · rw [stuck_step hphase ht, ← h.lost, hg]
    exact Bool.or_eq_true_iff
  · rw [hg] at hlost
    subst hside
    rcases Bool.or_eq_true_iff.mp hlost with hbefore | hloses
    · have hclosed := h.closed rfl hbefore
      by_contra hq
      exact absurd (hopen (by simpa using hq)).1 (by simp [hclosed])
    · exact loses_closes hloses ht

/-- A requested disconnect is not done where the open socket has lost a write. -/
theorem Tidy.closes_iff (h : Tidy side p) :
    Closes p ↔ ¬ (p.1.isOpen = true ∧ p.2.asked = true ∧ p.2.lost = true) := by
  constructor
  · rintro hcloses ⟨hopen, hasked, hlost⟩
    have hclosed := hcloses hasked (h.lost.mp hlost).2
    exact Bool.false_ne_true (hclosed.symm.trans hopen)
  · intro hnot hasked hempty
    by_contra hopen
    have hopen : p.1.isOpen = true := by simpa using hopen
    have hbytes := h.waits hopen (h.asked hopen ▸ hasked)
    exact hnot ⟨hopen, hasked, h.lost.mpr ⟨hbytes, hempty⟩⟩

/-- The move that strands the socket leaves it open. -/
theorem Tidy.strands_open (h : Tidy side p) (hcloses : Closes p) {a : Label}
    (hstrands : Strands side p a) (hq : (recorded side).step p a = some q) :
    q.1.isOpen = true := by
  obtain ⟨hside, hopen, hasked, hlost⟩ := hstrands
  have hnot := h.closes_iff.mp hcloses
  obtain ⟨ht, -⟩ := Machine.withGhost_step_eq_some.mp hq
  subst hside
  have hfirst : a.asks p.1 = true ∨ a.loses p.1 = true := by
    by_contra hneither
    rw [not_or, Bool.not_eq_true, Bool.not_eq_true] at hneither
    refine hnot ⟨hopen, ?_, ?_⟩
    · simpa [History.record, hneither.1] using hasked
    · simpa [History.record, hneither.2] using hlost
  cases a with
  | disconnect e =>
    have hstuck : p.1.Stuck := h.lost.mp (by simpa [History.record, Label.loses] using hlost)
    have hbytes : p.1.out.bytesToWrite > 0 := Nat.pos_of_ne_zero hstuck.1
    have hq := Option.some.inj ht
    rw [← hq, WriteState.disconnect, if_pos hbytes]
    exact hopen
  | fail i msg e =>
    simp only [machine, Link.step] at ht
    split at ht
    next => exact (Option.some.inj ht) ▸ hopen
    next => cases ht
  | sendData | progress | complete | close => simp [Label.asks, Label.loses] at hfirst

/-- **A requested disconnect closes the socket in the runs that never strand it.** A `Connection`
is never stranded; a `ClientConnection` is, once its open socket has both been asked to close and
lost the write of a non-empty buffer, in either order. -/
theorem disconnect_closes_iff (side : Side) (l : List Label) :
    (recorded side).EachStep (fun _ _ q => Closes q) ({}, {}) l ↔
      (recorded side).EachStep (fun p a _ => ¬ Strands side p a) ({}, {}) l := by
  have hiff : ∀ p a q, Tidy side p ∧ Closes p → (recorded side).step p a = some q →
      (Closes q ↔ ¬ Strands side p a) := by
    rintro p a q ⟨h, hcloses⟩ hq
    have hnext := h.step hq
    obtain ⟨ht, hg⟩ := Machine.withGhost_step_eq_some.mp hq
    rw [hnext.closes_iff, not_iff_not]
    constructor
    · rintro ⟨hopen, hasked, hlost⟩
      refine ⟨?_, ((waits_step h.waits ht).2 hopen).1, hg ▸ hasked, hg ▸ hlost⟩
      cases side with
      | connection => exact absurd hopen (by simp [hnext.closed rfl hlost])
      | clientConnection => rfl
    · intro hstrands
      exact ⟨h.strands_open hcloses hstrands hq, hg ▸ hstrands.2.2.1, hg ▸ hstrands.2.2.2⟩
  refine Machine.eachStep_iff hiff (fun p a q h hG hq => ?_) ⟨tidy_init side, nofun⟩ l
  exact ⟨h.1.step hq, (hiff p a q h hq).mpr hG⟩

/-- The peer of a `ClientConnection` resets it before the request is written: the `disconnect` that
follows does nothing, and the socket stays open. -/
theorem disconnect_after_failed_write : ∃ s g, (recorded .clientConnection).run ({}, {})
      [.sendData [1], .fail 0 "Connection reset by peer" none, .disconnect none] = some (s, g) ∧
    g.asked = true ∧ s.writes = [] ∧ s.isOpen = true ∧ ¬ Closes (s, g) := by
  refine ⟨_, _, rfl, rfl, rfl, rfl, fun hcloses => ?_⟩
  exact absurd (hcloses rfl nofun) (by decide)

end Link

end Asyncgi
