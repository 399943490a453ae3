import Mathlib.Algebra.Order.Ring.Nat
import Asyncgi.Listener.Accepting

/-!
# The contexts of the connections

`IOService::nextIO` takes the contexts in turn, for whichever server makes a connection. Its counter
is an atomic `std::size_t` that starts again from zero, in the middle of a turn where the number of
contexts does not divide `2 ^ 64`. So the connections of all servers are spread over the contexts
together; those of one server need not be.

## Main definitions

* `contexts n k`: the contexts that the first `k` calls of `nextIO` return

## Main results

* `count_contexts`: how often the first `k` calls return a context
* `connections_spread`: the connections of all servers are spread evenly over the contexts
-/

namespace Asyncgi

/-- The contexts that the first `k` calls of `nextIO` return, of `n`. -/
def contexts (n k : Nat) : List Nat := (List.range k).map fun m => m % 2 ^ 64 % n

theorem contexts_succ (n k : Nat) : contexts n (k + 1) = contexts n k ++ [k % 2 ^ 64 % n] := by
  rw [contexts, List.range_succ, List.map_append]
  rfl

section Count

variable {n k c d : Nat}

/-- How often `m` calls return the context `c`, from the beginning of a turn on. -/
def share (n m c : Nat) : Nat := m / n + if c < m % n then 1 else 0

theorem share_succ (hc : c < n) (m : Nat) :
    share n (m + 1) c = share n m c + if m % n = c then 1 else 0 := by
  have hdiv := Nat.div_add_mod m n
  have hlt := Nat.mod_lt m (Nat.lt_of_le_of_lt (Nat.zero_le c) hc)
  unfold share
  rcases Nat.lt_or_ge (m % n + 1) n with hmid | hlast
  · have hq : (m + 1) / n = m / n := by
      rw [← hdiv, Nat.add_assoc, Nat.mul_add_div (by omega), Nat.div_eq_of_lt hmid]
      rw [Nat.mul_add_div (by omega), Nat.div_eq_of_lt hlt]
    have hr : (m + 1) % n = m % n + 1 := by
      rw [Nat.add_mod, Nat.mod_eq_of_lt (by omega : 1 < n), Nat.mod_eq_of_lt hmid]
    rw [hq, hr]
    by_cases heq : m % n = c
    · rw [if_pos (by omega), if_neg (by omega), if_pos heq]
    · by_cases hlt' : c < m % n
      · rw [if_pos (by omega), if_pos hlt', if_neg heq]
      · rw [if_neg (by omega), if_neg hlt', if_neg heq]
  · have hfull : m + 1 = n * (m / n + 1) := by
      rw [Nat.mul_add, Nat.mul_one]
      omega
    have hq : (m + 1) / n = m / n + 1 := by
      rw [hfull, Nat.mul_div_cancel_left _ (by omega)]
    have hr : (m + 1) % n = 0 := by rw [hfull, Nat.mul_mod_right]
    rw [hq, hr, if_neg (Nat.not_lt_zero c)]
    by_cases heq : m % n = c
    · rw [if_neg (by omega), if_pos heq]
    · rw [if_pos (by omega), if_neg heq]

/-- **How often a context is returned**: a turn that the counter breaks off is not made up for. -/
theorem count_contexts (hc : c < n) (k : Nat) :
    (contexts n k).count c = k / 2 ^ 64 * share n (2 ^ 64) c + share n (k % 2 ^ 64) c := by
  induction k with
  | zero => simp [contexts, share]
  | succ k ih =>
    rw [contexts_succ, List.count_append, ih, List.count_singleton]
    have hsucc := share_succ hc (k % 2 ^ 64)
    simp only [beq_iff_eq]
    rcases Nat.lt_or_ge (k % 2 ^ 64 + 1) (2 ^ 64) with hmid | hlast
    · have hq : (k + 1) / 2 ^ 64 = k / 2 ^ 64 := by omega
      have hr : (k + 1) % 2 ^ 64 = k % 2 ^ 64 + 1 := by omega
      rw [hq, hr, hsucc]
      omega
    · -- the counter starts again
      have hq : (k + 1) / 2 ^ 64 = k / 2 ^ 64 + 1 := by omega
      have hr : (k + 1) % 2 ^ 64 = 0 := by omega
      have hfull : k % 2 ^ 64 + 1 = 2 ^ 64 := by omega
      rw [hfull] at hsucc
      rw [hq, hr, hsucc, Nat.succ_mul]
      simp [share]
      omega

theorem share_le (n m c d : Nat) : share n m c ≤ share n m d + 1 := by
  unfold share
  split <;> split <;> omega

/-- Two contexts differ by one call, and by one more for each time the counter started again. -/
theorem contexts_spread (hc : c < n) (hd : d < n) (k : Nat) :
    (contexts n k).count c ≤ (contexts n k).count d + k / 2 ^ 64 + 1 := by
  have hturns : k / 2 ^ 64 * share n (2 ^ 64) c ≤ k / 2 ^ 64 * (share n (2 ^ 64) d + 1) :=
    Nat.mul_le_mul_left _ (share_le n _ c d)
  have hrest := share_le n (k % 2 ^ 64) c d
  rw [count_contexts hc, count_contexts hd]
  rw [Nat.mul_add, Nat.mul_one] at hturns
  omega

end Count

/-! ## The connections of the servers -/

/-- The connections have the contexts that `nextIO` has returned. -/
structure Rotating (n : Nat) (s : Servers) : Prop where
  poolSize : s.poolSize = n
  ioIndex : s.ioIndex.toNat = s.connections.length % 2 ^ 64
  connections : s.connections = contexts n s.connections.length

namespace Rotating

variable {n : Nat} {s t : Servers}

theorem init (n : Nat) : Rotating n { poolSize := n } where
  poolSize := rfl
  ioIndex := rfl
  connections := rfl

theorem of_eq (h : Rotating n s) (hrest : (t.poolSize, t.ioIndex, t.connections) =
    (s.poolSize, s.ioIndex, s.connections)) : Rotating n t := by
  simp only [Prod.mk.injEq] at hrest
  obtain ⟨hsize, hindex, hconnections⟩ := hrest
  constructor
  · rw [hsize, h.poolSize]
  · rw [hindex, hconnections, h.ioIndex]
  · rw [hconnections]
    exact h.connections

/-- The connection that is made gets the next context. -/
theorem wait (h : Rotating n s) (i : ListenerId) :
    Rotating n (ConnectionListener.waitForConnection s i) where
  poolSize := h.poolSize
  ioIndex := by
    rw [ConnectionListener.waitForConnection_connections, List.length_append]
    show (s.ioIndex + 1).toNat = _
    rw [BitVec.toNat_add, h.ioIndex]
    exact Nat.mod_add_mod _ (2 ^ 64) 1
  connections := by
    rw [ConnectionListener.waitForConnection_connections, List.length_append,
      List.length_singleton, contexts_succ, ← h.connections, h.ioIndex, h.poolSize]

theorem step (h : Rotating n s) {a : Servers.Label} (ht : s.step a = some t) : Rotating n t := by
  cases a with
  | listen server =>
    obtain rfl := Option.some.inj ht
    exact (h.of_eq (t := s.addListener server) rfl).wait _
  | complete a error =>
    obtain ⟨-, rfl⟩ := Option.ite_some_none_eq_some.mp ht
    cases error with
    | some msg => exact h.of_eq rfl
    | none =>
      exact (h.of_eq (t := { s with
        accepts := s.accepts.erase a
        trace := s.trace ++ [.accepted a] ++ [.process a.connection] }) rfl).wait _

end Rotating

/-- **The connections are spread evenly over the contexts**: however many servers there are over an
`IO`, and however the accepts of their listeners succeed and fail, any two contexts have the same
number of connections, or one more, and one more for each time the counter has started again. -/
theorem connections_spread {n c d : Nat} {s : Servers} {l : List Servers.Label}
    (hl : (Servers.machine n).run (Servers.machine n).init l = some s) (hc : c < n) (hd : d < n) :
    s.connections.count c ≤ s.connections.count d + s.connections.length / 2 ^ 64 + 1 := by
  have h := Machine.run_invariant (M := Servers.machine n) (I := Rotating n)
    (fun _ _ _ h ht => h.step ht) hl (.init n)
  have hspread := contexts_spread hc hd s.connections.length
  rwa [← h.connections] at hspread

/-- Two servers over two contexts whose accepts alternate: all connections of the one have the one
context, and all connections of the other the other. -/
theorem connections_spread_alternating : ∃ s, (Servers.machine 2).run (Servers.machine 2).init
      [.listen 0, .listen 1, .complete ⟨⟨0, 0⟩, 0⟩ none, .complete ⟨⟨1, 0⟩, 1⟩ none] = some s ∧
    s.connections = [0, 1, 0, 1] ∧
    s.trace.filterMap ListenerEvent.startedOn = [0, 1, 2, 3] ∧
    s.accepts = [⟨⟨0, 0⟩, 2⟩, ⟨⟨1, 0⟩, 3⟩] ∧
    s.connections.count 0 ≤ s.connections.count 1 + s.connections.length / 2 ^ 64 + 1 :=
  ⟨_, rfl, rfl, rfl, rfl, connections_spread (n := 2)
    (l := [.listen 0, .listen 1, .complete ⟨⟨0, 0⟩, 0⟩ none, .complete ⟨⟨1, 0⟩, 1⟩ none])
    rfl (by decide) (by decide)⟩

end Asyncgi
