import Mathlib.Data.List.Basic

/-!
# The write side of a connection

`Connection` and `ClientConnection` buffer what they send in the same way: at most one
`async_write` of a non-empty buffer is meant to be in flight, and what is sent meanwhile waits in
`nextWriteBuffer_`. The functions here are that bookkeeping; each returns, with the new members,
the call on the socket it makes.

## Main definitions

* `WriteState`: `writeBuffer_`, `nextWriteBuffer_`, `bytesToWrite_`, `disconnectRequested_`
* `WriteState.sendData`, `WriteState.onBytesWritten`, `WriteState.disconnect`: the functions of
  the same names
-/

namespace Asyncgi

/-- The contents of a `std::string` used as a buffer. -/
abbrev Bytes := List UInt8

/-- `asyncgi::ErrorEvent`. -/
inductive ErrorEvent
  | connectionError
  | socketReadError
  | socketWriteError
  | socketCloseError
  | requestProcessingError
  | routeParametersError
  deriving DecidableEq, Repr

/-- The members of a connection that its writing uses. -/
structure WriteState where
  writeBuffer : Bytes := []
  nextWriteBuffer : Bytes := []
  bytesToWrite : Nat := 0
  disconnectRequested : Bool := false
  deriving DecidableEq, Repr

/-- What a function of the write side does with the socket before it returns. -/
inductive SocketCall
  | none
  /-- `asio::async_write(socket_, asio::buffer(writeBuffer_), …)` -/
  | asyncWrite
  /-- `close()` -/
  | close
  deriving DecidableEq, Repr

namespace WriteState

/-- `sendData`. -/
def sendData (w : WriteState) (data : Bytes) : WriteState × SocketCall :=
  if w.bytesToWrite ≠ 0 then
    ({ w with nextWriteBuffer := w.nextWriteBuffer ++ data }, .none)
  else
    let w :=
      if w.nextWriteBuffer ≠ [] then
        { w with writeBuffer := w.nextWriteBuffer ++ data, nextWriteBuffer := [] }
      else { w with writeBuffer := data }
    ({ w with bytesToWrite := w.bytesToWrite + w.writeBuffer.length }, .asyncWrite)

/-- `onBytesWritten`. The subtraction is the natural numbers'; it agrees with that of
`std::size_t` where it does not go below zero. -/
def onBytesWritten (w : WriteState) (numOfBytes : Nat) : WriteState × SocketCall :=
  let w := { w with bytesToWrite := w.bytesToWrite - numOfBytes }
  if w.bytesToWrite ≠ 0 then (w, .none)
  else if w.nextWriteBuffer ≠ [] then w.sendData []
  else if w.disconnectRequested then (w, .close)
  else (w, .none)

/-- `disconnect`. -/
def disconnect (w : WriteState) : WriteState × SocketCall :=
  let w := { w with disconnectRequested := true }
  if w.bytesToWrite > 0 then (w, .none) else (w, .close)

/-- The part of `close` that concerns the write side. -/
def onClose (w : WriteState) : WriteState := { w with disconnectRequested := false }

theorem sendData_of_busy {w : WriteState} (h : w.bytesToWrite ≠ 0) (data : Bytes) :
    w.sendData data = ({ w with nextWriteBuffer := w.nextWriteBuffer ++ data }, .none) := by
  simp [sendData, h]

theorem sendData_of_idle {w : WriteState} (h : w.bytesToWrite = 0) (hn : w.nextWriteBuffer = [])
    (data : Bytes) :
    w.sendData data =
      ({ w with writeBuffer := data, bytesToWrite := data.length }, .asyncWrite) := by
  simp [sendData, h, hn]

/-- A completion that leaves bytes to write changes the counter only. -/
theorem onBytesWritten_of_lt {w : WriteState} {n : Nat} (h : n < w.bytesToWrite) :
    w.onBytesWritten n = ({ w with bytesToWrite := w.bytesToWrite - n }, .none) := by
  have : w.bytesToWrite - n ≠ 0 := by omega
  simp [onBytesWritten, this]

/-- The completion of the last byte, with nothing waiting: the pending disconnect is done. -/
theorem onBytesWritten_of_empty {w : WriteState} {n : Nat} (h : w.bytesToWrite ≤ n)
    (hn : w.nextWriteBuffer = []) :
    w.onBytesWritten n =
      ({ w with bytesToWrite := 0 }, if w.disconnectRequested then .close else .none) := by
  have : w.bytesToWrite - n = 0 := by omega
  cases hd : w.disconnectRequested <;> simp [onBytesWritten, this, hn, hd]

/-- The completion of the last byte, with bytes waiting: they become the next write. -/
theorem onBytesWritten_of_waiting {w : WriteState} {n : Nat} (h : w.bytesToWrite ≤ n)
    (hn : w.nextWriteBuffer ≠ []) :
    w.onBytesWritten n =
      ({ w with writeBuffer := w.nextWriteBuffer, nextWriteBuffer := [],
                bytesToWrite := w.nextWriteBuffer.length }, .asyncWrite) := by
  have : w.bytesToWrite - n = 0 := by omega
  simp [onBytesWritten, sendData, this, hn]

end WriteState

end Asyncgi
