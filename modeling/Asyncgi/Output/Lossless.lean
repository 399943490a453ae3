import Asyncgi.Output.Link
import Asyncgi.Transition.Ghost
import Asyncgi.Transition.Pipe
import Mathlib.Algebra.GroupWithZero.Nat

/-!
# The output of a connection is ordered and lossless

A link is an ordered, lossless pipe: `sendData` accepts bytes, the socket delivers them, and
no other move changes what was accepted or delivered. The laws of the buffers and the counter are
read off the phase the link is in.

## Main results

* `Link.refines_pipe`: a run of a link is a run of a pipe
* `Link.output_lossless`: at most one write of a non-empty buffer, whose buffer stays as it was;
  the counter is the size of the writes in flight; the socket carries a prefix of what was
  accepted; and the socket is closed only after all of it
* `Link.written_run`: what was accepted is what the writes have completed, and what is left
-/

namespace Asyncgi

namespace Link

variable {acc : Bytes} {s t : Link} {side : Side}

theorem Phase.sent_isPrefixOf (h : Phase acc s) : s.sent <+: acc := by
  cases h with
  | idle _ _ _ hsent => exact hsent ▸ List.prefix_refl _
  | writing l r w done _ _ _ _ _ _ hsent hacc =>
    rw [hsent, hacc, List.append_assoc]
    exact (List.prefix_append_right_inj done).mpr
      ((List.take_prefix _ _).trans (List.prefix_append _ _))
  | lost _ _ _ hsent => exact hsent

/-- Bytes of a write still to go out are in `writeBuffer_`. -/
theorem Phase.length_piece (h : Phase acc s) {i k : Nat} {w : AsyncWrite}
    (hw : s.writes[i]? = some w) (hk : w.written + k ≤ w.data.length) :
    ((s.out.writeBuffer.drop w.written).take k).length = k := by
  have hempty : w.data = [] → k = 0 := by rintro h; simp [h] at hk; omega
  have hmem := List.mem_of_getElem? hw
  have hcase : w.data = [] ∨ w.data = s.out.writeBuffer := by
    cases h with
    | idle _ he => exact Or.inl (he w hmem)
    | writing l r v done hwrites he hdata =>
      rw [hwrites, List.mem_append, List.mem_cons] at hmem
      rcases hmem with hmem | rfl | hmem
      · exact Or.inl (he w (List.mem_append_left _ hmem))
      · exact Or.inr hdata
      · exact Or.inl (he w (List.mem_append_right _ hmem))
    | lost _ _ he => exact Or.inl (he w hmem)
  rcases hcase with h | h
  · simp [hempty h]
  · rw [← h, List.length_take, List.length_drop]
    omega

/-! ## The pipe a link implements -/

/-- The pipe's moves that a link's move amounts to. -/
def Label.moves : Label → List (Pipe.Label UInt8)
  | .sendData d => [.accept d]
  | .progress _ k => [.deliver k]
  | _ => []

/-- The pipe has accepted what the link was given, and delivered what is on the socket. -/
def Implements (s : Link) (p : Pipe UInt8) : Prop := Phase p.accepted s ∧ p.delivered = s.sent

/-- A completion or a disconnect neither accepts nor delivers. -/
theorem sent_perform (e : Option String) (r : WriteState × SocketCall) :
    (s.perform e r).sent = s.sent := by
  rcases r with ⟨w, _ | _ | _⟩ <;> rfl

theorem implements_step (a : Label) {p : Pipe UInt8} (hp : Implements s p)
    (ht : (machine side).step s a = some t) :
    ∃ q, (Pipe.machine UInt8).run p a.moves = some q ∧ Implements t q := by
  obtain ⟨hphase, hdel⟩ := hp
  have hnext := phase_step hphase ht
  -- a move without input and output is matched by the pipe staying as it is
  have hstay : a.input = [] → t.sent = s.sent →
      ∃ q, (Pipe.machine UInt8).run p [] = some q ∧ Implements t q := fun hin hout =>
    ⟨p, rfl, by simpa [hin] using hnext, hdel.trans hout.symm⟩
  cases Step.of_step ht with
  | @sendData d =>
    refine ⟨{ p with pending := p.pending ++ d }, rfl, ?_, hdel.trans (sent_perform _ _).symm⟩
    simpa [Pipe.accepted, Label.input] using hnext
  | disconnect => exact hstay rfl (sent_perform _ _)
  | @progress i k w hw _ hk =>
    obtain ⟨rest, hrest⟩ := (hphase.progress hw hk).sent_isPrefixOf
    have hpending : p.pending = (s.out.writeBuffer.drop w.written).take k ++ rest := by
      have : p.delivered ++ p.pending = p.delivered ++
          ((s.out.writeBuffer.drop w.written).take k ++ rest) := by
        rw [hdel, ← List.append_assoc, hrest, ← hdel]
        rfl
      exact List.append_cancel_left this
    have hlen := hphase.length_piece hw hk
    refine ⟨_, hlen ▸ Pipe.run_deliver hpending, ?_, by simp [hdel]⟩
    simpa [Pipe.accepted, hpending, Label.input] using hnext
  | complete => exact hstay rfl (sent_perform _ _)
  | fail => exact hstay rfl (by cases side <;> rfl)
  | close => exact hstay rfl rfl

theorem accept_moves (l : List Label) :
    (l.flatMap Label.moves).flatMap Pipe.Label.input = accepted l := by
  induction l with
  | nil => rfl
  | cons a l ih =>
    simp only [accepted, List.flatMap_cons, List.flatMap_append] at ih ⊢
    rw [ih]
    cases a <;> simp [Label.moves, Pipe.Label.input, Label.input]

/-- **A link refines an ordered, lossless pipe**: every run of the link is a run of a pipe that
accepts the bytes handed to `sendData` and delivers the bytes put on the socket. -/
theorem refines_pipe {l : List Label} (h : (machine side).run {} l = some s) :
    ∃ p, (Pipe.machine UInt8).run {} (l.flatMap Label.moves) = some p ∧ p.delivered = s.sent ∧
      p.accepted = accepted l := by
  obtain ⟨p, hp, hphase, hdel⟩ := Machine.run_simulation (S := Implements)
    (fun _ a _ _ hS ht => implements_step a hS ht) (p := {}) ⟨phase_init, rfl⟩ h
  refine ⟨p, hp, hdel, ?_⟩
  rw [Pipe.accepted_run hp, accept_moves]
  rfl

/-! ## The laws of the buffers -/

/-- The non-empty writes in flight. -/
def busyWrites (s : Link) : List AsyncWrite := s.writes.filter fun w => w.data ≠ []

/-- At most one write of a non-empty buffer is in flight, and `writeBuffer_` is what it was
given. -/
theorem Phase.busyWrites_le (h : Phase acc s) :
    s.busyWrites.length ≤ 1 ∧ ∀ w ∈ s.busyWrites, s.out.writeBuffer = w.data := by
  have hnone : ∀ {l : List AsyncWrite}, (∀ w ∈ l, w.data = []) →
      l.filter (fun w => w.data ≠ []) = [] := by
    intro l hl
    simpa [List.filter_eq_nil_iff] using hl
  cases h with
  | idle _ hempty => rw [busyWrites, hnone hempty]; simp
  | writing l r w done hwrites hempty hdata hne =>
    have hl := hnone fun x hx => hempty x (List.mem_append_left r hx)
    have hr := hnone fun x hx => hempty x (List.mem_append_right l hx)
    have : s.busyWrites = [w] := by
      rw [busyWrites, hwrites, List.filter_append, hl, List.filter_cons, hr]
      simp [hne]
    simp [this, hdata]
  | lost _ _ hempty => rw [busyWrites, hnone hempty]; simp

theorem sum_length_eq_zero {l : List AsyncWrite} (h : ∀ w ∈ l, w.data = []) :
    (l.map fun w => w.data.length).sum = 0 := by
  induction l with
  | nil => rfl
  | cons w l ih =>
    rw [List.map_cons, List.sum_cons, ih fun x hx => h x (List.mem_cons_of_mem w hx)]
    simp [h w]

/-- As long as no write has failed, `bytesToWrite_` counts the bytes of the writes in flight. -/
theorem Phase.bytesToWrite_eq (h : Phase acc s) (hok : s.failed = false) :
    s.out.bytesToWrite = (s.writes.map fun w => w.data.length).sum := by
  cases h with
  | idle hbytes hempty => rw [hbytes, sum_length_eq_zero hempty]
  | writing l r w done hwrites hempty _ _ hbytes =>
    rw [hbytes, hwrites, List.map_append, List.map_cons, List.sum_append, List.sum_cons,
      sum_length_eq_zero fun x hx => hempty x (List.mem_append_left r hx),
      sum_length_eq_zero fun x hx => hempty x (List.mem_append_right l hx)]
    omega
  | lost hfailed => simp [hok] at hfailed

/-- A completion never subtracts more than `bytesToWrite_`. -/
theorem Phase.length_le_bytesToWrite (h : Phase acc s) {w : AsyncWrite} (hw : w ∈ s.writes) :
    w.data.length ≤ s.out.bytesToWrite := by
  cases h with
  | idle _ hempty => simp [hempty w hw]
  | writing l r v done hwrites hempty _ _ hbytes =>
    rw [hwrites, List.mem_append, List.mem_cons] at hw
    rcases hw with hw | rfl | hw
    · simp [hempty w (List.mem_append_left _ hw)]
    · exact Nat.le_of_eq hbytes.symm
    · simp [hempty w (List.mem_append_right _ hw)]
  | lost _ _ hempty => simp [hempty w hw]

theorem Phase.bytesToWrite_pos (h : Phase acc s) (hnext : s.out.nextWriteBuffer ≠ []) :
    0 < s.out.bytesToWrite := by
  cases h with
  | idle _ _ hn => exact absurd hn hnext
  | writing l r w done _ _ _ hne hbytes => exact hbytes ▸ List.length_pos_iff.mpr hne
  | lost _ hbytes => exact Nat.pos_of_ne_zero hbytes

/-- With the counter at zero everything accepted is on the socket. -/
theorem Phase.sent_of_bytesToWrite (h : Phase acc s) (hzero : s.out.bytesToWrite = 0) :
    s.sent = acc := by
  cases h with
  | idle _ _ _ hsent => exact hsent
  | writing l r w done _ _ _ hne hbytes =>
    exact absurd (List.length_eq_zero_iff.mp (hbytes ▸ hzero)) hne
  | lost _ hbytes => exact absurd hzero hbytes

theorem Phase.sent_of_no_writes (h : Phase acc s) (hok : s.failed = false)
    (hnone : s.writes = []) : s.sent = acc :=
  h.sent_of_bytesToWrite (by rw [h.bytesToWrite_eq hok, hnone]; rfl)

/-- The moves that run `disconnect` or `onBytesWritten`. -/
def Label.finishes : Label → Prop
  | .disconnect _ | .complete _ _ => True
  | _ => False

/-- `disconnect` and `onBytesWritten` close the socket only when all is written. -/
theorem Phase.sent_of_close (h : Phase acc s) {a : Label} (ha : a.finishes)
    (ht : (machine side).step s a = some t) (hopen : s.isOpen = true) (hclosed : t.isOpen = false) :
    s.sent = acc := by
  have hphase := phase_step h ht
  cases Step.of_step ht with
  | disconnect =>
    by_cases hbytes : s.out.bytesToWrite > 0
    · simp [WriteState.disconnect, hbytes, hopen] at hclosed
    · exact h.sent_of_bytesToWrite (by omega)
  | @complete i e w =>
    rcases Nat.lt_or_ge w.data.length s.out.bytesToWrite with hlt | hge
    · simp [WriteState.onBytesWritten_of_lt hlt, hopen] at hclosed
    by_cases hnext : s.out.nextWriteBuffer = []
    · rw [WriteState.onBytesWritten_of_empty hge hnext] at hphase
      have hsent := hphase.sent_of_bytesToWrite (by cases s.out.disconnectRequested <;> rfl)
      rw [sent_perform] at hsent
      simpa [Label.input] using hsent
    · simp [WriteState.onBytesWritten_of_waiting hge hnext, hopen] at hclosed
  | sendData | progress | fail | close => exact ha.elim

/-- **The output is ordered and lossless**, for both classes, in every state of every run `l`:
at most one write of a non-empty buffer is in flight and its buffer is unchanged; the counter is
the number of bytes in flight until a write fails, is never below what a completion subtracts,
and is positive while data waits; the socket carries a prefix of the accepted bytes, and all of
them once nothing is in flight and no write has failed; and `disconnect` and `onBytesWritten`
close the socket only when it carries all of them. -/
theorem output_lossless (side : Side) {l : List Label} {s : Link}
    (h : (machine side).run {} l = some s) :
    (s.busyWrites.length ≤ 1 ∧ ∀ w ∈ s.busyWrites, s.out.writeBuffer = w.data) ∧
      ((s.failed = false → s.out.bytesToWrite = (s.writes.map fun w => w.data.length).sum) ∧
        (∀ w ∈ s.writes, w.data.length ≤ s.out.bytesToWrite) ∧
        (s.out.nextWriteBuffer ≠ [] → 0 < s.out.bytesToWrite)) ∧
      (s.sent <+: accepted l ∧ (s.failed = false → s.writes = [] → s.sent = accepted l)) ∧
      ∀ a t, a.finishes → (machine side).step s a = some t → s.isOpen = true →
        t.isOpen = false → s.sent = accepted l := by
  have hphase := phase_run h
  obtain ⟨p, -, hdel, hacc⟩ := refines_pipe h
  refine ⟨hphase.busyWrites_le,
    ⟨hphase.bytesToWrite_eq, fun w hw => hphase.length_le_bytesToWrite hw, hphase.bytesToWrite_pos⟩,
    ⟨?_, hphase.sent_of_no_writes⟩,
    fun a t ha ht ho hc => hphase.sent_of_close ha ht ho hc⟩
  rw [← hdel, ← hacc]
  exact p.delivered_prefix

/-- A run with data waiting behind a write, an empty send beside it, and a pending disconnect. -/
theorem output_lossless_backpressure :
    (machine .connection).run {} [.sendData [1, 2], .sendData [3], .disconnect none,
        .progress 0 2, .complete 0 none, .sendData [], .progress 0 1, .complete 0 none] =
      some { out := { writeBuffer := [3] }, isOpen := false, sent := [1, 2, 3] } ∧
    ([1, 2, 3] : Bytes) <+: accepted [.sendData [1, 2], .sendData [3], .disconnect none,
        .progress 0 2, .complete 0 none, .sendData [], .progress 0 1, .complete 0 none] :=
  have hrun : (machine .connection).run {} [.sendData [1, 2], .sendData [3], .disconnect none,
        .progress 0 2, .complete 0 none, .sendData [], .progress 0 1, .complete 0 none] =
      some { out := { writeBuffer := [3] }, isOpen := false, sent := [1, 2, 3] } := by decide
  ⟨hrun, (output_lossless .connection hrun).2.2.1.1⟩

/-! ## The writes that have completed -/

/-- The bytes of a write that completes. -/
def completes (s : Link) : Label → Bytes
  | .complete i _ =>
    match s.writes[i]? with
    | some w => s.out.writeBuffer.take w.data.length
    | none => []
  | _ => []

/-- A link was given the bytes `acc`, and writes of the bytes `done` have completed: what is left is
in the two buffers, unless a write has failed. -/
structure Written (acc done : Bytes) (s : Link) : Prop where
  isPrefix : done <+: acc
  idle : s.out.bytesToWrite = 0 → done = acc
  busy : ∀ w ∈ s.writes, w.data ≠ [] → acc = done ++ s.out.writeBuffer ++ s.out.nextWriteBuffer

/-- A write of bytes is of all of `writeBuffer_`, and of all that `bytesToWrite_` counts. -/
theorem Phase.of_busy (h : Phase acc s) {w : AsyncWrite} (hw : w ∈ s.writes) (hne : w.data ≠ []) :
    w.data = s.out.writeBuffer ∧ s.out.bytesToWrite = w.data.length := by
  cases h with
  | idle _ hempty => exact absurd (hempty w hw) hne
  | writing l r v done hwrites hempty hdata _ hbytes =>
    rw [hwrites, List.mem_append, List.mem_cons] at hw
    rcases hw with hw | rfl | hw
    · exact absurd (hempty w (List.mem_append_left _ hw)) hne
    · exact ⟨hdata, hbytes⟩
    · exact absurd (hempty w (List.mem_append_right _ hw)) hne
  | lost _ _ hempty => exact absurd (hempty w hw) hne

/-- With the counter at zero nothing waits. -/
theorem Phase.nextWriteBuffer_eq_nil (h : Phase acc s) (hzero : s.out.bytesToWrite = 0) :
    s.out.nextWriteBuffer = [] := by
  by_contra hnext
  exact absurd hzero (Nat.ne_of_gt (h.bytesToWrite_pos hnext))

namespace Written

variable {done : Bytes}

theorem init : Written [] [] {} where
  isPrefix := List.prefix_rfl
  idle _ := rfl
  busy := nofun

/-- The buffers and the counter stay as they are, and no write of bytes is started. -/
theorem same (h : Written acc done s) (hbuffer : t.out.writeBuffer = s.out.writeBuffer)
    (hnext : t.out.nextWriteBuffer = s.out.nextWriteBuffer)
    (hbytes : t.out.bytesToWrite = s.out.bytesToWrite)
    (hwrites : ∀ w ∈ t.writes, ∃ v ∈ s.writes, v.data = w.data) : Written acc done t where
  isPrefix := h.isPrefix
  idle hzero := h.idle (hbytes.symm.trans hzero)
  busy w hw hne := by
    obtain ⟨v, hv, hdata⟩ := hwrites w hw
    rw [hbuffer, hnext]
    exact h.busy v hv (hdata ▸ hne)

theorem sendData (h : Written acc done s) (hphase : Phase acc s) (d : Bytes) :
    Written (acc ++ d) done (s.perform none (s.out.sendData d)) := by
  have hfirst : done <+: acc ++ d := h.isPrefix.trans (List.prefix_append _ _)
  rcases Nat.eq_zero_or_pos s.out.bytesToWrite with hzero | hpos
  · have hnext := hphase.nextWriteBuffer_eq_nil hzero
    rw [WriteState.sendData_of_idle hzero hnext]
    refine ⟨hfirst, fun hlength => ?_, fun w _ _ => ?_⟩
    · have hd : d = [] := List.length_eq_zero_iff.mp hlength
      rw [hd, List.append_nil]
      exact h.idle hzero
    · simp [hnext, h.idle hzero]
  · rw [WriteState.sendData_of_busy (Nat.ne_of_gt hpos)]
    refine ⟨hfirst, fun hzero => absurd hzero (Nat.ne_of_gt hpos), fun w hw hne => ?_⟩
    have hacc := h.busy w hw hne
    simp [hacc]

/-- A write completes: its bytes were the first of those that were left. -/
theorem complete (h : Written acc done s) (hphase : Phase acc s) {i : Nat} {w : AsyncWrite}
    (hw : s.writes[i]? = some w) (hfull : w.written = w.data.length) (e : Option String) :
    Written acc (done ++ s.out.writeBuffer.take w.data.length)
      (perform { s with writes := s.writes.eraseIdx i } e
        (s.out.onBytesWritten w.data.length)) := by
  have hmem := List.mem_of_getElem? hw
  have hrest : ∀ x ∈ s.writes.eraseIdx i, ∃ v ∈ s.writes, v.data = x.data := fun x hx =>
    ⟨x, List.mem_of_mem_eraseIdx hx, rfl⟩
  have hafter := hphase.complete hw hfull e
  rcases eq_or_ne w.data [] with hnil | hne
  · have hlength : w.data.length = 0 := by rw [hnil, List.length_nil]
    rw [hlength, List.take_zero, List.append_nil]
    rcases Nat.eq_zero_or_pos s.out.bytesToWrite with hzero | hpos
    · have hnext := hphase.nextWriteBuffer_eq_nil hzero
      rw [WriteState.onBytesWritten_of_empty (Nat.le_of_eq hzero) hnext]
      cases s.out.disconnectRequested <;> exact h.same rfl rfl hzero.symm hrest
    · rw [WriteState.onBytesWritten_of_lt hpos]
      exact h.same rfl rfl (Nat.sub_zero _) hrest
  · obtain ⟨hdata, hbytes⟩ := hphase.of_busy hmem hne
    have hacc := h.busy w hmem hne
    have htake : s.out.writeBuffer.take w.data.length = s.out.writeBuffer := by
      rw [hdata, List.take_length]
    rw [htake]
    have hfirst : done ++ s.out.writeBuffer <+: acc := hacc ▸ List.prefix_append _ _
    rcases eq_or_ne s.out.nextWriteBuffer [] with hnext | hnext
    · rw [hnext, List.append_nil] at hacc
      rw [WriteState.onBytesWritten_of_empty (Nat.le_of_eq hbytes) hnext] at hafter ⊢
      refine ⟨hfirst, fun _ => hacc.symm, fun x hx hxne => ?_⟩
      -- nothing is left, so no write of bytes is in flight
      have hle := hafter.length_le_bytesToWrite hx
      have hzero : x.data.length ≤ 0 := by
        cases hd : s.out.disconnectRequested <;>
          simpa [hd, Link.close, WriteState.onClose] using hle
      exact absurd (List.length_eq_zero_iff.mp (Nat.le_zero.mp hzero)) hxne
    · rw [WriteState.onBytesWritten_of_waiting (Nat.le_of_eq hbytes) hnext]
      refine ⟨hfirst, fun hzero => ?_, fun _ _ _ => ?_⟩
      · exact absurd (List.length_eq_zero_iff.mp hzero) hnext
      · simpa using hacc

/-- **Every move of a link** keeps what was given what is written and what is left. -/
theorem step (h : Written acc done s) (hphase : Phase acc s) {a : Label}
    (ht : (machine side).step s a = some t) :
    Written (acc ++ a.input) (done ++ s.completes a) t := by
  have hsame : ∀ {v : Link}, Written acc done v → Written (acc ++ []) (done ++ []) v := by
    intro v hv
    rwa [List.append_nil, List.append_nil]
  cases Step.of_step ht with
  | @sendData d =>
    have hnone : s.completes (.sendData d) = [] := rfl
    rw [hnone, List.append_nil]
    exact h.sendData hphase d
  | disconnect =>
    refine hsame ?_
    unfold WriteState.disconnect
    dsimp only
    split <;> exact h.same rfl rfl rfl fun w hw => ⟨w, hw, rfl⟩
  | @progress i k w hw =>
    refine hsame (h.same rfl rfl rfl fun x hx => ?_)
    rcases List.mem_or_eq_of_mem_set hx with hx | rfl
    · exact ⟨x, hx, rfl⟩
    · exact ⟨w, List.mem_of_getElem? hw, rfl⟩
  | complete hw hfull =>
    simp only [completes, hw, Label.input, List.append_nil]
    exact h.complete hphase hw hfull _
  | fail =>
    refine hsame ?_
    cases side <;> exact h.same rfl rfl rfl fun x hx => ⟨x, List.mem_of_mem_eraseIdx hx, rfl⟩
  | close => exact hsame (h.same rfl rfl rfl fun w hw => ⟨w, hw, rfl⟩)

end Written

theorem written_run {l : List Label} (h : (machine side).run {} l = some s) :
    Written (accepted l) ((machine side).collect completes {} l) s := by
  suffices hall : ∀ {acc done u}, Phase acc u → Written acc done u →
      (machine side).run u l = some s →
        Written (acc ++ accepted l) (done ++ (machine side).collect completes u l) s from
    hall phase_init .init h
  clear h
  induction l with
  | nil =>
    intro acc done u _ hu hl
    obtain rfl := Option.some.inj hl
    simpa [accepted, Machine.collect] using hu
  | cons a l ih =>
    intro acc done u hphase hu hl
    obtain ⟨v, hv, hl⟩ := (Machine.run_cons_eq_some _).mp hl
    have hnext := ih (phase_step hphase hv) (hu.step hphase hv) hl
    simpa [accepted, Machine.collect, hv, List.append_assoc] using hnext

end Link

end Asyncgi
